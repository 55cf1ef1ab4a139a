import XPathBench.Proofs.Transcripts

/-!
# Node-sets of runs

A run shows the nodes of a node-set all or not at all. They are written in the order in which the
engine hands them over, each with all that is below it or as it is stored, up to the first that
fails or crashes; that one alone decides how the run ends then.

* `RawNode.writer`, `RawNode.asked`: how a node of a node-set is written
* `NodeSetShown`: what is asked of the nodes, and the outcome
* `Pipeline.Selects`: requests for which an engine answers with nodes
* `nodeSets_whole`: runs whose query selects nodes
-/

namespace XPathBench

variable {m : Type → Type} {D Q : Type}

/-- What writes a node: elements and roots are written with all that is below them, laid out afresh,
other nodes as they are stored. -/
def RawNode.writer (n : RawNode m) (indent : Indent) : m (Attempt MarkupError String) :=
  match n.kind with
  | .root | .element => n.subtree indent
  | _ => n.outer

/-- The question that writes a node. -/
def RawNode.asked (n : RawNode m) (indent : Indent) (answer : Attempt MarkupError String) :
    Event m D Q :=
  match n.kind with
  | .root | .element => .subtree n indent answer
  | _ => .outer n answer

theorem RawNode.writing_eq (n : RawNode m) (indent : Indent)
    (answer : Attempt MarkupError String) :
    (n.writing indent answer : Event m D Q) = n.asked indent answer := by
  unfold writing asked
  cases n.kind <;> rfl

/-- The result answers for nodes and for no other shape. -/
structure RawResult.IsNodeSet (raw : RawResult m) (nodes : List (RawNode m)) : Prop where
  text : raw.text = none
  boolean : raw.boolean = none
  number : raw.number = none
  nodes : raw.nodes = some nodes

/-- What is asked of the nodes of a node-set, and the outcome. Either all of them are written, and
the value has a block for each one; or the first that cannot be written ends the run, and the ones
behind it are not asked. -/
inductive NodeSetShown (indent : Indent) (nodes : List (RawNode m)) :
    List (Event m D Q) → Outcome → Prop where
  | all {written : List (RawNode m × String)} {declared value timings}
      (hnodes : nodes = written.map Prod.fst)
      (hvalue : value = .nodeSet (written.map fun w => ⟨w.1.kind, w.2⟩))
      (hlines : value.lines = ("\x7bCount=" ++ toString nodes.length ++ "\x7d") ::
        written.flatMap fun w => ["", "[NodeType." ++ w.1.kind.name ++ "]", w.2]) :
      NodeSetShown indent nodes (written.map fun w => w.1.asked indent (.ok w.2))
        (.success ⟨declared, value, timings⟩)
  | stopped {written : List (RawNode m × String)} {n rest i d}
      (hnodes : nodes = written.map Prod.fst ++ n :: rest)
      (hi : Reported
        (fun e d => d = ⟨.unexpected, "MarkupError", e.message, none, none, none⟩) i d) :
      NodeSetShown indent nodes
        ((written.map fun w => w.1.asked indent (.ok w.2)) ++ [n.asked indent (.error i)])
        (.failure d)

variable {indent : Indent} {nodes : List (RawNode m)} {events : List (Event m D Q)}
  {raw : RawResult m}

/-- Nodes are written up to the first that cannot be, or all of them. -/
theorem Written.exists_written {result : Attempt MarkupError (List NodeBlock)}
    (h : Written indent nodes events result) :
    ∃ written : List (RawNode m × String),
      (nodes = written.map Prod.fst ∧
        events = (written.map fun w => w.1.asked indent (.ok w.2)) ∧
        result = .ok (written.map fun w => ⟨w.1.kind, w.2⟩)) ∨
      ∃ n rest i, nodes = written.map Prod.fst ++ n :: rest ∧
        events = (written.map fun w => w.1.asked indent (.ok w.2)) ++ [n.asked indent (.error i)] ∧
        result = .error i := by
  induction h with
  | nil => exact ⟨[], .inl ⟨rfl, rfl, rfl⟩⟩
  | @cons n nodes markup events result _ ih =>
    rw [RawNode.writing_eq]
    obtain ⟨written, ⟨rfl, rfl, rfl⟩ | ⟨n', rest, i, rfl, rfl, rfl⟩⟩ := ih
    · exact ⟨(n, markup) :: written, .inl ⟨rfl, rfl, rfl⟩⟩
    · exact ⟨(n, markup) :: written, .inr ⟨n', rest, i, rfl, rfl, rfl⟩⟩
  | @stop n nodes i =>
    rw [RawNode.writing_eq]
    exact ⟨[], .inr ⟨n, nodes, i, rfl, rfl, rfl⟩⟩

theorem Shown.written_of_isNodeSet {result : Attempt MarkupError ResultValue}
    (h : Shown indent raw events result) (hraw : raw.IsNodeSet nodes) :
    ∃ blocks, Written indent nodes events blocks ∧ result = blocks.map .nodeSet := by
  obtain ⟨htext, hboolean, hnumber, hnodes⟩ := hraw
  cases h with
  | text h => cases htext.symm.trans h
  | boolean _ h => cases hboolean.symm.trans h
  | number _ _ h => cases hnumber.symm.trans h
  | nodeSet _ _ _ h hwritten =>
    cases hnodes.symm.trans h
    exact ⟨_, hwritten, rfl⟩
  | unrecognized _ _ _ h => cases hnodes.symm.trans h

theorem lines_nodeSet (written : List (RawNode m × String)) :
    (ResultValue.nodeSet (written.map fun w => ⟨w.1.kind, w.2⟩)).lines =
      ("\x7bCount=" ++ toString (written.map Prod.fst).length ++ "\x7d") ::
        written.flatMap fun w => ["", "[NodeType." ++ w.1.kind.name ++ "]", w.2] := by
  show ("\x7bCount=" ++ toString (written.map _).length ++ "\x7d") ::
    (written.map _).flatMap (fun b : NodeBlock => ["", b.tag, b.markup]) = _
  rw [List.length_map, List.length_map, List.flatMap_map]
  rfl

/-- The evaluations in a transcript: there is at most one, behind the other two operations. -/
theorem Transcript.shown_of_evaluate {p : Pipeline m D Q} {request : Request} {outcome : Outcome}
    {query : Q} {document : D} (h : Transcript p request events outcome)
    (hraw : .evaluate query document (.ok raw) ∈ events) :
    ∃ asked, events = [.parse request.document (.ok document), .compile request.query (.ok query),
        .evaluate query document (.ok raw)] ++ asked ∧
      ((∃ i d, outcome = .failure d ∧ Shown p.indent raw asked (.error i) ∧ Reported
          (fun e d => d = ⟨.unexpected, "MarkupError", e.message, none, none, none⟩) i d) ∨
        ∃ value timings, outcome = .success ⟨p.engine.declared query, value, timings⟩ ∧
          Shown p.indent raw asked (.ok value)) := by
  have hnot {asked : List (Event m D Q)} (hcalls : calls asked = []) :
      Event.evaluate query document (.ok raw) ∉ asked := by
    intro hmem
    exact absurd (List.filterMap_eq_nil_iff.mp hcalls _ hmem) nofun
  cases h with
  | parsing _ | compiling _ | evaluating _ => simp at hraw
  | unwritten h hi =>
    simp only [List.mem_cons, reduceCtorEq, hnot h.calls, Event.evaluate.injEq, Except.ok.injEq,
      false_or, or_false] at hraw
    obtain ⟨rfl, rfl, rfl⟩ := hraw
    exact ⟨_, rfl, .inl ⟨_, _, rfl, h, hi⟩⟩
  | success h =>
    simp only [List.mem_cons, reduceCtorEq, hnot h.calls, Event.evaluate.injEq, Except.ok.injEq,
      false_or, or_false] at hraw
    obtain ⟨rfl, rfl, rfl⟩ := hraw
    exact ⟨_, rfl, .inr ⟨_, _, rfl, h⟩⟩

theorem Transcript.nodeSetShown {p : Pipeline m D Q} {request : Request} {outcome : Outcome}
    {query : Q} {document : D} (h : Transcript p request events outcome)
    (hraw : .evaluate query document (.ok raw) ∈ events) (hnodes : raw.IsNodeSet nodes) :
    ∃ asked, events = [.parse request.document (.ok document), .compile request.query (.ok query),
        .evaluate query document (.ok raw)] ++ asked ∧
      NodeSetShown p.indent nodes asked outcome := by
  obtain ⟨asked, hevents, ⟨i, d, rfl, hshown, hi⟩ | ⟨value, timings, rfl, hshown⟩⟩ :=
    h.shown_of_evaluate hraw
  · obtain ⟨blocks, hwritten, hresult⟩ := hshown.written_of_isNodeSet hnodes
    obtain ⟨written, ⟨-, -, rfl⟩ | ⟨n, rest, i', rfl, rfl, rfl⟩⟩ := hwritten.exists_written
    · cases hresult
    · cases hresult
      exact ⟨_, hevents, .stopped rfl hi⟩
  · obtain ⟨blocks, hwritten, hresult⟩ := hshown.written_of_isNodeSet hnodes
    obtain ⟨written, ⟨rfl, rfl, rfl⟩ | ⟨n, rest, i, -, -, rfl⟩⟩ := hwritten.exists_written
    · cases hresult
      exact ⟨_, hevents, .all rfl rfl (lines_nodeSet written)⟩
    · cases hresult

/-! ## Runs by the answers of the engine -/

/-- The engine takes the document and the query of a request, and hands nodes over. -/
structure Pipeline.Selects [Monad m] (p : Pipeline m D Q) (request : Request) (document : D)
    (query : Q) (raw : RawResult m) (nodes : List (RawNode m)) : Prop where
  parse : Returns (p.engine.parse request.document) (· = .ok document)
  compile : Returns (p.engine.compile request.query) (· = .ok query)
  evaluate : Returns (p.engine.evaluate query document) (· = .ok raw)
  isNodeSet : raw.IsNodeSet nodes

/-- The answers for a request whose query selects nodes, and the answers of their writers. -/
def Event.Expected (indent : Indent) (request : Request) (document : D) (query : Q)
    (raw : RawResult m) (nodes : List (RawNode m))
    (answers : RawNode m → Attempt MarkupError String → Prop) : Event m D Q → Prop
  | parse text answer => text = request.document → answer = .ok document
  | compile text answer => text = request.query → answer = .ok query
  | evaluate query' document' answer => query' = query ∧ document' = document → answer = .ok raw
  | subtree n layout answer =>
      n ∈ nodes ∧ n.kind.hasSubtree = true ∧ layout = indent → answers n answer
  | outer n answer => n ∈ nodes ∧ n.kind.hasSubtree = false → answers n answer

theorem RawNode.writer_eq (n : RawNode m) (indent : Indent) :
    n.writer indent = if n.kind.hasSubtree then n.subtree indent else n.outer := by
  unfold writer
  cases n.kind <;> rfl

theorem Event.Expected.of_asked {request : Request} {document : D} {query : Q}
    {answers : RawNode m → Attempt MarkupError String → Prop} {n : RawNode m}
    {answer : Attempt MarkupError String} (hn : n ∈ nodes)
    (h : Event.Expected indent request document query raw nodes answers (n.asked indent answer)) :
    answers n answer := by
  unfold RawNode.asked at h
  cases hkind : n.kind <;> rw [hkind] at h
  · exact h ⟨hn, by rw [hkind]; rfl, rfl⟩
  · exact h ⟨hn, by rw [hkind]; rfl, rfl⟩
  all_goals exact h ⟨hn, by rw [hkind]; rfl⟩

/-- A run asks for the nodes, if all that it asks before is answered as expected. -/
theorem Transcript.evaluate_mem_of_expected {p : Pipeline m D Q} {request : Request} {document : D}
    {query : Q} {answers : RawNode m → Attempt MarkupError String → Prop} {outcome : Outcome}
    (h : Transcript p request events outcome) (hexpected : ∀ e ∈ events,
      e.Expected indent request document query raw nodes answers) :
    .evaluate query document (.ok raw) ∈ events := by
  cases h with
  | parsing _ => cases hexpected _ List.mem_cons_self rfl
  | compiling _ =>
    obtain ⟨-, hcompile⟩ := List.forall_mem_cons.mp hexpected
    cases hcompile _ List.mem_cons_self rfl
  | evaluating _ | unwritten _ _ | success _ =>
    obtain ⟨hparse, hbehind⟩ := List.forall_mem_cons.mp hexpected
    obtain ⟨hcompile, hbehind⟩ := List.forall_mem_cons.mp hbehind
    cases hparse rfl
    cases hcompile rfl
    cases hbehind _ List.mem_cons_self ⟨rfl, rfl⟩
    try exact List.mem_cons_of_mem _ (List.mem_cons_of_mem _ List.mem_cons_self)

section
variable [Monad m] [LawfulMonad m] {p : Pipeline m D Q} {request : Request} {document : D}
  {query : Q} {answers : RawNode m → Attempt MarkupError String → Prop}

theorem answers_expected (h : p.Selects request document query raw nodes)
    (hanswers : ∀ n ∈ nodes, Returns (n.writer indent) (answers n)) :
    p.engine.Answers (Event.Expected indent request document query raw nodes answers) where
  parse text := returns_imp fun htext => htext ▸ h.parse
  compile text := returns_imp fun htext => htext ▸ h.compile
  evaluate query' document' := returns_imp fun ⟨hquery, hdocument⟩ =>
    hquery ▸ hdocument ▸ h.evaluate
  subtree n layout := by
    refine returns_imp ?_
    rintro ⟨hn, hkind, rfl⟩
    have hwriter := hanswers n hn
    rwa [RawNode.writer_eq, if_pos hkind] at hwriter
  outer n := by
    refine returns_imp ?_
    rintro ⟨hn, hkind⟩
    have hwriter := hanswers n hn
    rwa [RawNode.writer_eq, if_neg (ne_true_of_eq_false hkind)] at hwriter

/-- A run whose query selects nodes, whatever the engine does. It does what it does without a
record, and asks the engine as its transcript tells. It writes the nodes in their order; if all can
be written, the value shows each of them, and else the first that cannot decides the outcome alone.
Nodes that are written without effects are written as the record tells. If the engine takes the
document and the query and hands nodes over, all three operations are called, and then the nodes are
written, each as its writer may answer. -/
theorem nodeSets_whole (p : Pipeline m D Q) (request : Request) (earlier : List (Event m D Q)) :
    let run := (p.recorded.run request.document request.query).run earlier
    Prod.fst <$> run = p.run request.document request.query ∧
    (Returns run fun result => ∃ events, result.2 = earlier ++ events ∧
      Transcript p request events result.1 ∧ (∀ e ∈ events, e.Truthful p.engine) ∧
        ∀ query document raw nodes, .evaluate query document (.ok raw) ∈ events →
          raw.IsNodeSet nodes → ∃ asked,
            events = [.parse request.document (.ok document), .compile request.query (.ok query),
              .evaluate query document (.ok raw)] ++ asked ∧
            NodeSetShown p.indent nodes asked result.1) ∧
    ∀ document query raw nodes, p.Selects request document query raw nodes →
      ∀ answers : RawNode m → Attempt MarkupError String → Prop,
        (∀ n ∈ nodes, Returns (n.writer p.indent) (answers n)) →
          Returns run fun result => ∃ asked,
            result.2 = earlier ++ ([.parse request.document (.ok document),
              .compile request.query (.ok query), .evaluate query document (.ok raw)] ++ asked) ∧
            NodeSetShown p.indent nodes asked result.1 ∧
            ∀ n ∈ nodes, ∀ answer, n.asked p.indent answer ∈ asked → answers n answer := by
  intro run
  have hrecords := records_run_answers (answers_truthful p.engine) request
  refine ⟨hrecords.run_eq (fun _ _ _ h => h.1) earlier, (hrecords.returns earlier).mono ?_,
    fun document query raw nodes hselects answers hanswers => ?_⟩
  · rintro ⟨outcome, events⟩ ⟨_, more, ⟨-, htranscript, htruthful⟩, rfl⟩
    exact ⟨more, rfl, htranscript, htruthful,
      fun _ _ _ _ hraw hnodes => htranscript.nodeSetShown hraw hnodes⟩
  · have hexpected := records_run_answers (answers_expected hselects hanswers) request
    refine (hexpected.returns earlier).mono ?_
    rintro ⟨outcome, events⟩ ⟨_, more, ⟨-, htranscript, htold⟩, rfl⟩
    have hraw := htranscript.evaluate_mem_of_expected htold
    obtain ⟨asked, rfl, hshown⟩ := htranscript.nodeSetShown hraw hselects.isNodeSet
    refine ⟨asked, rfl, hshown, fun n hn answer hasked => ?_⟩
    exact (htold _ (List.mem_append_right _ hasked)).of_asked hn

end

/-- A pipeline whose queries select the given nodes. -/
def selecting (nodes : List (RawNode Id)) : Pipeline Id Unit Unit where
  engine :=
    { parse _ := .ok ()
      compile _ := .ok ()
      declared _ := .nodeSet
      evaluate _ _ := .ok ⟨none, none, none, some nodes, ""⟩ }
  indent := ⟨2, ' '⟩
  clock := Duration.ofNanoseconds 0

theorem selects_selecting (nodes : List (RawNode Id)) (request : Request) :
    (selecting nodes).Selects request () () ⟨none, none, none, some nodes, ""⟩ nodes where
  parse := returns_id_iff.mpr rfl
  compile := returns_id_iff.mpr rfl
  evaluate := returns_id_iff.mpr rfl
  isNodeSet := ⟨rfl, rfl, rfl, rfl⟩

/-- A node-set that is written, with a node twice in it, and one whose third node is the first that
cannot be written. A node is not asked for the markup that its kind does not call for. -/
theorem nodeSets_whole_selecting :
    let comment : RawNode Id := ⟨.comment, fun _ => .error (.crash .wordless), .ok "<!--c-->"⟩
    let element : RawNode Id := ⟨.element, fun _ => .ok "<a/>", .error (.crash .wordless)⟩
    let attr : RawNode Id := ⟨.attr, fun _ => .ok "", .error (.failure (.writing "full"))⟩
    let text : RawNode Id := ⟨.text, fun _ => .ok "", .error (.crash (.message "no"))⟩
    let whole := [comment, element, element]
    let wholeAsked : List (Event Id Unit Unit) := [.outer comment (.ok "<!--c-->"),
      .subtree element ⟨2, ' '⟩ (.ok "<a/>"), .subtree element ⟨2, ' '⟩ (.ok "<a/>")]
    let stopped := [element, element, attr, text]
    let stoppedAsked : List (Event Id Unit Unit) := [.subtree element ⟨2, ' '⟩ (.ok "<a/>"),
      .subtree element ⟨2, ' '⟩ (.ok "<a/>"), .outer attr (.error (.failure (.writing "full")))]
    (NodeSetShown ⟨2, ' '⟩ whole wholeAsked ((selecting whole).run "" "") ∧
      ((selecting whole).run "" "").evaluation?.map (·.value) =
        some (.nodeSet [⟨.comment, "<!--c-->"⟩, ⟨.element, "<a/>"⟩, ⟨.element, "<a/>"⟩])) ∧
    NodeSetShown ⟨2, ' '⟩ stopped stoppedAsked ((selecting stopped).run "" "") ∧
      (selecting stopped).run "" "" = .failure
        ⟨.unexpected, "MarkupError", "failed to write markup: full", none, none, none⟩ := by
  intro comment element attr text whole wholeAsked stopped stoppedAsked
  have hshown (nodes : List (RawNode Id)) :=
    returns_id_iff.mp ((nodeSets_whole (selecting nodes) ⟨"", ""⟩ []).2.2 () () _ nodes
      (selects_selecting nodes _) _ fun n _ => returns_id_iff.mpr (Eq.refl (n.writer ⟨2, ' '⟩)))
  obtain ⟨asked, hevents, hwhole, -⟩ := hshown whole
  obtain ⟨asked', hevents', hstopped, -⟩ := hshown stopped
  obtain rfl : wholeAsked = asked := congrArg (List.drop 3) hevents
  obtain rfl : stoppedAsked = asked' := congrArg (List.drop 3) hevents'
  exact ⟨⟨hwhole, rfl⟩, hstopped, rfl⟩

end XPathBench
