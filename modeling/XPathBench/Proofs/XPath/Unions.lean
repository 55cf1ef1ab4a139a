import XPathBench.Proofs.XPath.Closing
import XPathBench.Proofs.XPath.DeclaredTypes
import XPathBench.Proofs.XPath.Selections

/-!
# Unions of queries

Two queries in parentheses with a pipe between them are the union of what they are by themselves,
and so it does not matter which of them comes first.

* `unionOf`: the union of two queries
* `parse_unionOf`: its expression
* `nodeSets_in_order`: runs list what they select in document order, and unions in either order
  alike
-/

namespace XPathBench

/-- The nodes of a run that selects nodes. -/
def Outcome.blocks? : Outcome → Option (List NodeBlock)
  | success ⟨_, .nodeSet blocks, _⟩ => some blocks
  | _ => none

theorem Outcome.told_of_blocks? {outcome : Outcome} {blocks : List NodeBlock}
    (h : outcome.blocks? = some blocks) :
    ∃ declared, outcome.told = .ok (declared, .nodeSet blocks) := by
  unfold blocks? at h
  split at h
  · cases h
    exact ⟨_, rfl⟩
  · cases h

namespace XPath

open Xml (Document)

/-! ## Groups and unions -/

namespace Parser

variable {α β : Type} {expression operand : Parser (Option Expr)} {e left right : Expr}
  {tokens rest : List Token} {error : Option LexicalError} {s : TokenStream}

theorem run_bind {rule : Parser α} {next : α → Parser β} {s' : TokenStream} {a : α}
    (h : rule.run s = .ok (a, s')) : (rule >>= next).run s = (next a).run s' := by
  rw [StateT.run_bind, h]
  rfl

theorem run_group {found : Option Expr} (h : expression.run ⟨tokens ++ .rightParen :: rest, error⟩ =
      .ok (found, ⟨.rightParen :: rest, error⟩)) :
    (group expression).run ⟨.leftParen :: (tokens ++ .rightParen :: rest), error⟩ =
      .ok (found, ⟨rest, error⟩) := by
  refine (run_bind (run_next_taken (v := ()) ?_)).trans ((run_bind h).trans ?_)
  · rfl
  · rfl

/-- A group with neither predicates nor steps behind it is a path. -/
theorem run_path_of_group (hrest : ∀ token ∈ rest.head?, token = .pipe)
    (h : expression.run ⟨tokens ++ .rightParen :: rest, error⟩ =
      .ok (some e, ⟨.rightParen :: rest, error⟩)) :
    (path expression).run ⟨.leftParen :: (tokens ++ .rightParen :: rest), error⟩ =
      .ok (some e, ⟨rest, error⟩) := by
  have hprimary : (primary expression).run ⟨.leftParen :: (tokens ++ .rightParen :: rest), error⟩ =
      .ok (some e, ⟨rest, error⟩) := by
    refine (run_bind rfl).trans ?_
    refine (run_bind (run_group h)).trans ?_
    rfl
  have hpredicates : (manyLeft (predicate expression)).run ⟨rest, error⟩ =
      .ok ([], ⟨rest, error⟩) := by
    refine run_get.trans (run_many_of_none ?_)
    refine (run_bind (run_next_left fun token htoken => ?_)).trans rfl
    rw [hrest token htoken]
  have hslash : slash.run ⟨rest, error⟩ = .ok (none, ⟨rest, error⟩) :=
    run_next_left fun token htoken => by rw [hrest token htoken]
  have hfiltered : (filtered expression).run
      ⟨.leftParen :: (tokens ++ .rightParen :: rest), error⟩ = .ok (some e, ⟨rest, error⟩) := by
    refine (run_bind hprimary).trans ?_
    refine (run_bind hpredicates).trans ?_
    refine (run_bind hslash).trans ?_
    rfl
  refine (run_bind rfl).trans ?_
  refine (run_bind rfl).trans ?_
  refine (run_bind hfiltered).trans ?_
  rfl

theorem run_require {rule : Parser (Option α)} {missing : ParseError} {s' : TokenStream} {a : α}
    (h : rule.run s = .ok (some a, s')) : (require missing rule).run s = .ok (a, s') :=
  (run_bind h).trans rfl

theorem run_manyLeft_of_one {rule : Parser (Option α)} {token : Token} {a : α}
    (h : rule.run ⟨token :: tokens, error⟩ = .ok (some a, ⟨[], error⟩))
    (hnil : rule.run ⟨[], error⟩ = .ok (none, ⟨[], error⟩)) :
    (manyLeft rule).run ⟨token :: tokens, error⟩ = .ok ([a], ⟨[], error⟩) := by
  refine run_get.trans ((run_bind h).trans ?_)
  exact (run_bind (run_many_of_none hnil)).trans rfl

theorem run_union (hleft : operand.run s = .ok (some left, ⟨.pipe :: tokens, error⟩))
    (hright : operand.run ⟨tokens, error⟩ = .ok (some right, ⟨[], error⟩)) :
    (chain (fun | .pipe => some .union | _ => none) operand).run s =
      .ok (some (.binary .union left right), ⟨[], error⟩) := by
  refine (run_bind hleft).trans ?_
  refine (run_bind (run_manyLeft_of_one (a := (.union, right)) ?_ rfl)).trans rfl
  refine (run_bind (run_next_taken (v := .union) ?_)).trans ?_
  · rfl
  · exact (run_bind (run_require hright)).trans rfl

/-- Operands that reach to the end have no operator behind them. -/
theorem run_foldr_chain {operators : List (Token → Option BinaryOp)}
    (h : operand.run s = .ok (some e, ⟨[], error⟩)) :
    (operators.foldr chain operand).run s = .ok (some e, ⟨[], error⟩) := by
  induction operators with
  | nil => exact h
  | cons operator operators ih => exact (run_bind ih).trans rfl

/-- Two groups with a pipe between them are a union. -/
theorem run_expression_of_groups {first second : List Token} (hfirst : Denotes first left)
    (hsecond : Denotes second right) :
    Parser.expression.run ⟨.leftParen :: (first ++ .rightParen :: .pipe :: .leftParen ::
        (second ++ [.rightParen])), none⟩ =
      .ok (some (.binary .union left right), ⟨[], none⟩) := by
  obtain ⟨depth, hdepth⟩ : ∃ depth, (Token.leftParen :: (first ++ .rightParen :: .pipe ::
    .leftParen :: (second ++ [.rightParen]))).length = depth := ⟨_, rfl⟩
  have hlength := hdepth
  simp only [List.length_cons, List.length_append, List.length_nil] at hlength
  have hleft := hfirst.run (k := depth) (.pipe :: .leftParen :: (second ++ [.rightParen])) none
    (by omega)
  have hright := hsecond.run (k := depth) [] none (by omega)
  have hunion := run_union (run_path_of_group (fun _ htoken => (Option.some.inj htoken).symm) hleft)
    (run_path_of_group nofun hright)
  refine run_expression.trans ?_
  dsimp only
  rw [hdepth]
  exact run_get.trans (run_foldr_chain ((run_bind hunion).trans rfl))

end Parser

/-! ## Texts -/

/-- The query for what one of two queries selects. -/
def unionOf (p q : String) : String := "(" ++ p ++ ") | (" ++ q ++ ")"

variable {p q : String} {left right : Expr}

theorem tokens_unionOf (hp : Expr.parse p = .ok (some left))
    (hq : Expr.parse q = .ok (some right)) :
    TokenStream.ofText (unionOf p q) =
      ⟨.leftParen :: ((TokenStream.ofText p).tokens ++ .rightParen :: .pipe :: .leftParen ::
        ((TokenStream.ofText q).tokens ++ [.rightParen])), none⟩ := by
  obtain ⟨hperror, hpdenotes⟩ := denotes_of_parse hp
  obtain ⟨hqerror, hqdenotes⟩ := denotes_of_parse hq
  have htext : (unionOf p q).toList = '(' :: (p.toList ++ ')' :: ' ' :: '|' :: ' ' :: '(' ::
      (q.toList ++ [')'])) := by
    simp [unionOf]
  have hopen {b : Bool} {cs : List Char} :
      lexemeAt b ('(' :: cs) = .ok ⟨[.leftParen], 1, false⟩ := rfl
  have hpipe {cs : List Char} : lexemeAt true ('|' :: cs) = .ok ⟨[.pipe], 1, false⟩ := rfl
  have hblank {b : Bool} {cs : List Char} :
      TokenStream.ofTextFrom b 0 (' ' :: cs) = TokenStream.ofTextFrom b 0 cs := rfl
  rw [TokenStream.ofText, htext, ofTextFrom_lexeme rfl hopen]
  simp only [Nat.sub_self, List.drop_zero]
  rw [ofTextFrom_paren hperror hpdenotes.nested.not_endsOpen, hblank, ofTextFrom_lexeme rfl hpipe]
  simp only [Nat.sub_self, List.drop_zero]
  rw [hblank, ofTextFrom_lexeme rfl hopen]
  simp only [Nat.sub_self, List.drop_zero]
  rw [ofTextFrom_paren hqerror hqdenotes.nested.not_endsOpen]
  rfl

/-- The union of two queries is the union of what they are. -/
theorem parse_unionOf (hp : Expr.parse p = .ok (some left)) (hq : Expr.parse q = .ok (some right)) :
    Expr.parse (unionOf p q) = .ok (some (.binary .union left right)) := by
  have hrun := Parser.run_expression_of_groups (denotes_of_parse hp).2 (denotes_of_parse hq).2
  rw [← tokens_unionOf hp hq] at hrun
  exact Expr.parse_eq_ok_iff.mpr hrun

/-! ## Runs -/

variable {bindings : Bindings} {indent : Indent} {backtraces : Backtraces}

/-- Of two queries that both compile, the unions in either order have the same value. -/
theorem value_unionOf_comm {document : String} {first second : Query}
    {r r' : ResultType × ResultValue} (hp : Query.compile p = .ok first)
    (hq : Query.compile q = .ok second)
    (hr : runResult bindings indent document (unionOf p q) backtraces = .ok r)
    (hr' : runResult bindings indent document (unionOf q p) backtraces = .ok r') : r.2 = r'.2 := by
  obtain ⟨hp, -⟩ := compile_eq_ok hp
  obtain ⟨hq, -⟩ := compile_eq_ok hq
  obtain ⟨parsed, compiled, v, hparsed, hcompiled, hv, rfl⟩ := runResult_eq_ok hr
  obtain ⟨parsed', compiled', v', hparsed', hcompiled', hv', rfl⟩ := runResult_eq_ok hr'
  obtain rfl : parsed = parsed' := Except.ok.inj (hparsed.symm.trans hparsed')
  have hexpr := (compile_eq_ok hcompiled).1.symm.trans (parse_unionOf hp hq)
  have hexpr' := (compile_eq_ok hcompiled').1.symm.trans (parse_unionOf hq hp)
  have hvalue := evaluate_eq_ok hv
  have hvalue' := evaluate_eq_ok hv'
  rw [Option.some.inj (Except.ok.inj hexpr)] at hvalue
  rw [Option.some.inj (Except.ok.inj hexpr')] at hvalue'
  exact congrArg (Value.shown parsed indent) (evaluate_union_comm hvalue hvalue')

/-- The nodes that a run selects are listed in document order, unless there are namespaces among
them. -/
theorem exists_places_of_blocks {document query : String} {declared : ResultType}
    {blocks : List NodeBlock}
    (h : runResult bindings indent document query backtraces = .ok (declared, .nodeSet blocks))
    (hkinds : ∀ b ∈ blocks, b.kind ≠ .namespaceBinding) :
    ∃ parsed compiled places, Document.load document = .ok parsed ∧
      Query.compile query = .ok compiled ∧
      compiled.evaluate bindings parsed = .ok (.nodeSet places) ∧
      Value.nodes? parsed (.nodeSet places) = some places ∧
      blocks = places.map (Place.block indent) ∧
      places.Sublist (Place.root parsed).subtree ∧
      places.Pairwise fun p q => p.same q = false ∧ p.Before q := by
  obtain ⟨parsed, compiled, v, hparsed, hcompiled, hv, hr⟩ := runResult_eq_ok h
  cases v with
  | nodeSet places =>
    cases hr
    have hroot : Place.root parsed ∈ Place.ofDocument parsed := List.mem_cons_self
    have hlisted := listed_of_evaluate hroot (evaluate_eq_ok hv)
    have hplaces : ∀ p ∈ places, p.kind ≠ .namespaceBinding := by
      intro p hp
      have hmem := Place.mem_inDocumentOrder.mpr ⟨hlisted.subset hp, p, hp, p.same_self⟩
      exact hkinds _ (List.mem_map_of_mem hmem)
    have hsame : Place.inDocumentOrder parsed places = places :=
      Place.inDocumentOrder_of_listed hlisted hplaces
    exact ⟨parsed, compiled, places, hparsed, hcompiled, hv, congrArg some hsame,
      congrArg (List.map (Place.block indent)) hsame,
      Place.sublist_subtree_of_listed hlisted hplaces, Place.pairwise_of_listed hlisted hplaces⟩
  | _ => cases hr

variable {m : Type → Type} [Monad m] [LawfulMonad m]

/-- Results list the places of a node-set in document order, each once, in whatever order they are
given, unless there are namespaces among them. So do runs list the nodes that they select, whatever
the query. Of two queries that both compile, the unions in either order have the same value. -/
theorem nodeSets_in_order {clock : m Duration} {document : String} :
    (∀ parsed selected places, Value.nodes? parsed (.nodeSet selected) = some places →
      (∀ p ∈ places, p.kind ≠ .namespaceBinding) →
        (places.Pairwise fun p q => p.same q = false ∧ p.Before q) ∧
          ∀ p, p ∈ places ↔ p ∈ Place.ofDocument parsed ∧ ∃ q ∈ selected, p.same q = true) ∧
    (∀ query, Returns ((Pipeline.mk (engine bindings backtraces) indent clock).run document query)
      fun outcome => ∀ blocks, outcome.blocks? = some blocks →
        (∀ b ∈ blocks, b.kind ≠ .namespaceBinding) →
          ∃ parsed compiled places, Document.load document = .ok parsed ∧
            Query.compile query = .ok compiled ∧
            compiled.evaluate bindings parsed = .ok (.nodeSet places) ∧
            Value.nodes? parsed (.nodeSet places) = some places ∧
            blocks = places.map (Place.block indent) ∧
            places.Sublist (Place.root parsed).subtree ∧
            places.Pairwise fun p q => p.same q = false ∧ p.Before q) ∧
    ∀ p q, (Query.compile p).isOk = true → (Query.compile q).isOk = true →
      let pipeline := Pipeline.mk (engine bindings backtraces) indent clock
      Returns (do
        let first ← pipeline.run document (unionOf p q)
        let second ← pipeline.run document (unionOf q p)
        return (first, second)) fun outcomes => ∀ evaluation evaluation',
          outcomes.1 = .success evaluation → outcomes.2 = .success evaluation' →
            evaluation.value = evaluation'.value := by
  refine ⟨fun _ _ _ => pairwise_of_nodes?,
    fun query => returns_run_engine.mono fun outcome htold blocks hblocks hkinds => ?_,
    fun p q hp hq => ?_⟩
  · obtain ⟨declared, hdeclared⟩ := Outcome.told_of_blocks? hblocks
    exact exists_places_of_blocks (htold.symm.trans hdeclared) hkinds
  · obtain ⟨left, hp⟩ := exists_of_isOk hp
    obtain ⟨right, hq⟩ := exists_of_isOk hq
    refine returns_run_engine.bind fun first hfirst => ?_
    refine returns_run_engine.bind fun second hsecond => returns_pure ?_
    rintro evaluation evaluation' rfl rfl
    exact value_unionOf_comm hp hq hfirst.symm hsecond.symm

theorem returns_pair_iff {α β : Type} {x : Id α} {y : Id β} {told : α × β → Prop} :
    @Returns _ Id Id.instMonad.toFunctor (do let a ← x; let b ← y; return (a, b)) told ↔
      told (x, y) :=
  returns_id_iff

/-- Places given last first and twice, the nodes on a reverse axis, and a union of overlapping
node-sets. -/
theorem nodeSets_in_order_reverse :
    (let d : Document := ⟨[.comment "x", .element ⟨⟨none, none, "a"⟩, [], []⟩ [], .comment "y"]⟩
    let first : Place := .node (.root d) 0 (.comment "x")
    let last : Place := .node (.root d) 2 (.comment "y")
    Value.nodes? d (.nodeSet [last, first, last]) = some [first, last] ∧
      [first, last].Pairwise fun p q => p.same q = false ∧ p.Before q) ∧
    (∃ parsed compiled places, Document.load "<r><x/><y/></r>" = .ok parsed ∧
      Query.compile "/r/y/preceding::*/ancestor-or-self::*" = .ok compiled ∧
      compiled.evaluate .none parsed = .ok (.nodeSet places) ∧
      Value.nodes? parsed (.nodeSet places) = some places ∧
      [⟨.element, "<r>\n  <x/>\n  <y/>\n</r>"⟩, ⟨.element, "<x/>"⟩] =
        places.map (Place.block ⟨2, ' '⟩) ∧
      places.Sublist (Place.root parsed).subtree ∧
      places.Pairwise fun p q => p.same q = false ∧ p.Before q) ∧
    ∃ evaluation evaluation',
      stillOutcome "<r><x/><y/></r>" (unionOf "//x" "//*") = .success evaluation ∧
      stillOutcome "<r><x/><y/></r>" (unionOf "//*" "//x") = .success evaluation' ∧
      evaluation.value = evaluation'.value := by
  obtain ⟨hlists, hruns, hinorder⟩ := @nodeSets_in_order .none ⟨2, ' '⟩ .none Id _ _
    (Duration.ofNanoseconds 0) "<r><x/><y/></r>"
  have hselected := returns_id_iff.mp (hruns "/r/y/preceding::*/ancestor-or-self::*")
  have hunions := returns_pair_iff.mp
    (hinorder "//x" "//*" (by decide +kernel) (by decide +kernel))
  dsimp only at hunions
  obtain ⟨evaluation, hfirst, -⟩ := exists_success (r := (.nodeSet, .nodeSet))
    (show (stillOutcome "<r><x/><y/></r>" (unionOf "//x" "//*")).evaluation?.map _ = _ by
      decide +kernel)
  obtain ⟨evaluation', hsecond, -⟩ := exists_success (r := (.nodeSet, .nodeSet))
    (show (stillOutcome "<r><x/><y/></r>" (unionOf "//*" "//x")).evaluation?.map _ = _ by
      decide +kernel)
  refine ⟨?_, hselected _ (by decide +kernel) (by decide), evaluation, evaluation', hfirst,
    hsecond, hunions _ _ hfirst hsecond⟩
  intro d first last
  exact ⟨rfl, (hlists d [last, first, last] [first, last] rfl (by decide)).1⟩

/-- Between two texts that do not compile a literal may begin in one and end in the other, so that
the union is none. -/
theorem unions_differ : ¬ ∀ p q blocks blocks',
    (stillOutcome "<r><a/><x/><y/></r>" (unionOf p q)).blocks? = some blocks →
    (stillOutcome "<r><a/><x/><y/></r>" (unionOf q p)).blocks? = some blocks' →
    (∀ b ∈ blocks ++ blocks', b.kind ≠ .namespaceBinding) → blocks = blocks' := by
  intro h
  have hequal := h "/r/a[.='] | /r/x" "/r/a[.='] | /r/y" [⟨.element, "<y/>"⟩]
    [⟨.element, "<x/>"⟩] (by decide +kernel) (by decide +kernel) (by decide)
  exact absurd hequal (by decide)

end XPath

end XPathBench
