import XPathBench.Proofs.Diagnostics
import XPathBench.Proofs.Record

/-!
# Transcripts of runs

What a run may ask the engine, and how it ends by the answers. This holds for every engine: each of
its operations may succeed, fail, or crash, and the writers of the nodes that it hands over may too.

* `Reported`: the diagnostic of what interrupted a run
* `Shown`: the value of a raw result
* `Transcript`: all that a run asked, and its outcome
* `runs_recorded`: the runs of a pipeline, one after the other
-/

namespace XPathBench

variable {m : Type → Type} {D Q ε : Type}

/-! ## Diagnostics -/

/-- The diagnostic of an interruption: what failures are reported as is as told, and a crash is
reported by what it left behind and has no position. -/
inductive Reported (failed : ε → Diagnostic → Prop) : Interruption ε → Diagnostic → Prop where
  | failure {reason d} (h : failed reason d) : Reported failed (.failure reason) d
  | crash {text} : Reported failed (.crash (.message text))
      ⟨.unexpected, "panic", text, none, none, none⟩
  | wordlessCrash : Reported failed (.crash .wordless)
      ⟨.unexpected, "panic", "unknown panic payload", none, none, none⟩

theorem reported_inPhase (phase : Phase) (source : String) (i : Interruption EngineFailure) :
    Reported (fun f d => d.Reports phase source f) i (i.inPhase phase source) := by
  obtain f | payload := i
  · exact .failure (reports_ofFailure phase source f)
  · cases payload with
    | message text => exact .crash
    | wordless => exact .wordlessCrash

theorem reported_inMarkup (i : Interruption MarkupError) :
    Reported (fun e d => d = ⟨.unexpected, "MarkupError", e.message, none, none, none⟩) i
      i.inMarkup := by
  obtain e | payload := i
  · exact .failure rfl
  · cases payload with
    | message text => exact .crash
    | wordless => exact .wordlessCrash

/-! ## Values -/

/-- The question that writes a node: containers are written with all that is below them. -/
def RawNode.writing (n : RawNode m) (indent : Indent) (answer : Attempt MarkupError String) :
    Event m D Q :=
  if n.kind.hasSubtree then .subtree n indent answer else .outer n answer

/-- The answer is the one that the operation of the engine gives, or the writer of the node, if that
has no effects. -/
def Event.Truthful [Pure m] (engine : Engine m D Q) : Event m D Q → Prop
  | parse text answer => Yields (engine.parse text) answer
  | compile text answer => Yields (engine.compile text) answer
  | evaluate query document answer => Yields (engine.evaluate query document) answer
  | subtree n indent answer => Yields (n.subtree indent) answer
  | outer n answer => Yields n.outer answer

/-- Nodes are written one after the other, up to the first that cannot be written. -/
inductive Written (indent : Indent) :
    List (RawNode m) → List (Event m D Q) → Attempt MarkupError (List NodeBlock) → Prop where
  | nil : Written indent [] [] (.ok [])
  | cons {n nodes markup events result} (h : Written indent nodes events result) :
      Written indent (n :: nodes) (n.writing indent (.ok markup) :: events)
        (result.map (⟨n.kind, markup⟩ :: ·))
  | stop {n nodes interruption} :
      Written indent (n :: nodes) [n.writing indent (.error interruption)] (.error interruption)

/-- A result is shown in the first shape that it answers for. -/
inductive Shown (indent : Indent) (raw : RawResult m) :
    List (Event m D Q) → Attempt MarkupError ResultValue → Prop where
  | text {s} (htext : raw.text = some s) : Shown indent raw [] (.ok (.text s))
  | boolean {b} (htext : raw.text = none) (hboolean : raw.boolean = some b) :
      Shown indent raw [] (.ok (.boolean b))
  | number {x} (htext : raw.text = none) (hboolean : raw.boolean = none)
      (hnumber : raw.number = some x) : Shown indent raw [] (.ok (.number x))
  | nodeSet {nodes events result} (htext : raw.text = none) (hboolean : raw.boolean = none)
      (hnumber : raw.number = none) (hnodes : raw.nodes = some nodes)
      (hwritten : Written indent nodes events result) :
      Shown indent raw events (result.map .nodeSet)
  | unrecognized (htext : raw.text = none) (hboolean : raw.boolean = none)
      (hnumber : raw.number = none) (hnodes : raw.nodes = none) :
      Shown indent raw [] (.ok (.unrecognized raw.display))

/-! ## Runs -/

/-- A document and a query. -/
structure Request where
  document : String
  query : String

/-- All that a run of a pipeline asks its engine for a request, and how the run ends by the answers:
the three operations are called in their order, each on what the ones before it gave, up to the
first that does not succeed; then the result is shown. -/
inductive Transcript (p : Pipeline m D Q) (request : Request) :
    List (Event m D Q) → Outcome → Prop where
  | parsing {i diagnostic}
      (h : Reported (fun f d => d.Reports .parsing request.document f) i diagnostic) :
      Transcript p request [.parse request.document (.error i)] (.failure diagnostic)
  | compiling {document i diagnostic}
      (h : Reported (fun f d => d.Reports .compiling request.query f) i diagnostic) :
      Transcript p request
        [.parse request.document (.ok document), .compile request.query (.error i)]
        (.failure diagnostic)
  | evaluating {document query i diagnostic}
      (h : Reported (fun f d => d.Reports .evaluating request.document f) i diagnostic) :
      Transcript p request
        [.parse request.document (.ok document), .compile request.query (.ok query),
          .evaluate query document (.error i)]
        (.failure diagnostic)
  | unwritten {document query raw events i diagnostic} (h : Shown p.indent raw events (.error i))
      (hi : Reported
        (fun e d => d = ⟨.unexpected, "MarkupError", e.message, none, none, none⟩) i diagnostic) :
      Transcript p request
        (.parse request.document (.ok document) :: .compile request.query (.ok query) ::
          .evaluate query document (.ok raw) :: events)
        (.failure diagnostic)
  | success {document query raw events value timings}
      (h : Shown p.indent raw events (.ok value)) :
      Transcript p request
        (.parse request.document (.ok document) :: .compile request.query (.ok query) ::
          .evaluate query document (.ok raw) :: events)
        (.success ⟨p.engine.declared query, value, timings⟩)

/-- Writing nodes calls no operation. -/
theorem Written.calls {indent : Indent} {nodes : List (RawNode m)} {events : List (Event m D Q)}
    {result : Attempt MarkupError (List NodeBlock)} (h : Written indent nodes events result) :
    calls events = [] := by
  have hwriting (n : RawNode m) (answer) :
      (n.writing indent answer : Event m D Q).phase? = none := by
    unfold RawNode.writing
    split <;> rfl
  induction h with
  | nil => rfl
  | cons _ ih => exact (List.filterMap_cons_none (hwriting _ _)).trans ih
  | stop => exact List.filterMap_cons_none (hwriting _ _)

theorem Shown.calls {indent : Indent} {raw : RawResult m} {events : List (Event m D Q)}
    {result : Attempt MarkupError ResultValue} (h : Shown indent raw events result) :
    calls events = [] := by
  cases h with
  | nodeSet _ _ _ _ hwritten => exact hwritten.calls
  | _ => rfl

/-- A run calls the operations in their order, up to one of them. -/
theorem Transcript.calls_prefix {p : Pipeline m D Q} {request : Request}
    {events : List (Event m D Q)} {outcome : Outcome} (h : Transcript p request events outcome) :
    calls events <+: [.parsing, .compiling, .evaluating] := by
  cases h with
  | parsing _ => exact ⟨[.compiling, .evaluating], rfl⟩
  | compiling _ => exact ⟨[.evaluating], rfl⟩
  | evaluating _ => exact ⟨[], rfl⟩
  | unwritten h _ | success h =>
    refine ⟨[], ?_⟩
    rw [List.append_nil]
    exact congrArg (Phase.parsing :: .compiling :: .evaluating :: ·) h.calls

section
variable [Monad m] [LawfulMonad m]

theorem answers_truthful (engine : Engine m D Q) : engine.Answers (Event.Truthful engine) where
  parse _ := returns_yields _
  compile _ := returns_yields _
  evaluate _ _ := returns_yields _
  subtree _ _ := returns_yields _
  outer _ := returns_yields _

variable {engine : Engine m D Q} {account : Event m D Q → Prop}

theorem records_block (hanswers : engine.Answers account) (indent : Indent) (n : RawNode m) :
    Records (E := Event m D Q) (RawNode.block indent n.recorded).run (RawNode.block indent n).run
      fun r s es => s = r ∧ ∃ answer, es = [n.writing indent answer] ∧
        r = answer.map (⟨n.kind, ·⟩) ∧ ∀ e ∈ es, account e := by
  have goOn {event : Attempt MarkupError String → Event m D Q}
      {y : ExceptT (Interruption MarkupError) m String} (hevent : n.writing indent = event)
      (hy : Returns y.run fun answer => account (event answer)) :
      Records (ExceptT.run (m := StateT _ m) do return (⟨n.kind, ← record event y⟩ : NodeBlock))
        (ExceptT.run do return (⟨n.kind, ← y⟩ : NodeBlock)) fun r s es =>
          s = r ∧ ∃ answer, es = [n.writing indent answer] ∧ r = answer.map (⟨n.kind, ·⟩) ∧
            ∀ e ∈ es, account e := by
    rw [hevent]
    refine records_run_bind (records_record event hy) ?_ ?_
    · rintro i s es ⟨rfl, rfl, htold⟩
      exact ⟨i, rfl, rfl, .error i, rfl, rfl, List.forall_mem_singleton.mpr htold⟩
    · rintro markup s es ⟨rfl, rfl, htold⟩
      refine ⟨markup, rfl, records_pure ⟨rfl, .ok markup, rfl, rfl, ?_⟩⟩
      exact List.forall_mem_singleton.mpr htold
  unfold RawNode.block RawNode.recorded
  cases hkind : n.kind.hasSubtree with
  | true =>
    simp only [if_true]
    exact goOn (funext fun answer => if_pos hkind) (hanswers.subtree n indent)
  | false =>
    simp only [Bool.false_eq_true, if_false]
    exact goOn (funext fun answer => if_neg (by rw [hkind]; decide)) (hanswers.outer n)

theorem records_blocks (hanswers : engine.Answers account) (indent : Indent)
    (nodes : List (RawNode m)) :
    Records (E := Event m D Q)
      ((nodes.map RawNode.recorded).mapM (RawNode.block indent)).run
      (nodes.mapM (RawNode.block indent)).run
      fun r s es => s = r ∧ Written indent nodes es r ∧ ∀ e ∈ es, account e := by
  induction nodes with
  | nil => exact records_pure ⟨rfl, .nil, List.forall_mem_nil _⟩
  | cons n nodes ih =>
    rw [List.map_cons, List.mapM_cons, List.mapM_cons]
    refine records_run_bind (records_block hanswers indent n) ?_ ?_
    · rintro i s es ⟨rfl, answer, rfl, hr, htold⟩
      cases answer with
      | ok markup => cases hr
      | error i' =>
        cases hr
        exact ⟨i, rfl, rfl, .stop, htold⟩
    · rintro block s es ⟨rfl, answer, rfl, hr, htold⟩
      cases answer with
      | error i => cases hr
      | ok markup =>
        cases hr
        refine ⟨_, rfl, records_run_bind ih ?_ ?_⟩
        · rintro i s es ⟨rfl, hwritten, hmore⟩
          exact ⟨i, rfl, rfl, .cons hwritten, List.forall_mem_append.mpr ⟨htold, hmore⟩⟩
        · rintro blocks s es ⟨rfl, hwritten, hmore⟩
          refine ⟨_, rfl, records_pure ⟨rfl, ?_⟩⟩
          rw [List.append_nil]
          exact ⟨.cons hwritten, List.forall_mem_append.mpr ⟨htold, hmore⟩⟩

theorem records_classify (hanswers : engine.Answers account) (indent : Indent)
    (raw : RawResult m) :
    Records (E := Event m D Q) (classify indent raw.recorded).run (classify indent raw).run
      fun r s es => s = r ∧ Shown indent raw es r ∧ ∀ e ∈ es, account e := by
  obtain ⟨text, boolean, number, nodes, display⟩ := raw
  cases text with
  | some s => exact records_pure ⟨rfl, .text rfl, List.forall_mem_nil _⟩
  | none => ?_
  cases boolean with
  | some b => exact records_pure ⟨rfl, .boolean rfl rfl, List.forall_mem_nil _⟩
  | none => ?_
  cases number with
  | some x => exact records_pure ⟨rfl, .number rfl rfl rfl, List.forall_mem_nil _⟩
  | none => ?_
  cases nodes with
  | none => exact records_pure ⟨rfl, .unrecognized rfl rfl rfl rfl, List.forall_mem_nil _⟩
  | some nodes => ?_
  refine records_run_bind (records_blocks hanswers indent nodes) ?_ ?_
  · rintro i s es ⟨rfl, hwritten, htold⟩
    exact ⟨i, rfl, rfl, .nodeSet rfl rfl rfl rfl hwritten, htold⟩
  · rintro blocks s es ⟨rfl, hwritten, htold⟩
    refine ⟨blocks, rfl, records_pure ⟨rfl, ?_⟩⟩
    rw [List.append_nil]
    exact ⟨.nodeSet rfl rfl rfl rfl hwritten, htold⟩

variable {p : Pipeline m D Q}

/-- The phases of a run do what they do without a record, and append the transcript of the run. -/
theorem records_phases (hanswers : p.engine.Answers account) (request : Request) :
    Records (p.recorded.phases request.document request.query).run
      (p.phases request.document request.query).run fun r s events => s = r ∧
        (match r with
        | .ok evaluation => Transcript p request events (.success evaluation)
        | .error diagnostic => Transcript p request events (.failure diagnostic)) ∧
        ∀ e ∈ events, account e := by
  unfold Pipeline.phases
  refine records_phase_bind (records_record _ (hanswers.parse request.document)) ?_ ?_
  · rintro i _ _ ⟨rfl, rfl, hparse⟩
    exact ⟨rfl, rfl, .parsing (reported_inPhase _ _ i), List.forall_mem_singleton.mpr hparse⟩
  rintro document _ _ parse ⟨rfl, rfl, hparse⟩
  refine ⟨document, rfl,
    records_phase_bind (records_record _ (hanswers.compile request.query)) ?_ ?_⟩
  · rintro i _ _ ⟨rfl, rfl, hcompile⟩
    exact ⟨rfl, rfl, .compiling (reported_inPhase _ _ i),
      List.forall_mem_cons.mpr ⟨hparse, List.forall_mem_singleton.mpr hcompile⟩⟩
  rintro query _ _ compile ⟨rfl, rfl, hcompile⟩
  have hrecords := (records_record (Event.evaluate query document)
    (hanswers.evaluate query document)).map_left
      fun answer => answer.map (RawResult.recorded (D := D) (Q := Q))
  refine ⟨query, rfl, records_phase_bind hrecords ?_ ?_⟩
  · rintro i answer _ ⟨_, hi, rfl, rfl, hevaluate⟩
    cases answer with
    | ok raw => cases hi
    | error i =>
      cases hi
      exact ⟨rfl, rfl, .evaluating (reported_inPhase _ _ i),
        List.forall_mem_cons.mpr ⟨hparse, List.forall_mem_cons.mpr
          ⟨hcompile, List.forall_mem_singleton.mpr hevaluate⟩⟩⟩
  rintro _ _ _ evaluate ⟨_, hraw, rfl, rfl, hevaluate⟩
  obtain ⟨raw, rfl, rfl⟩ := exists_of_map hraw.symm
  refine ⟨raw, rfl, records_run_liftM_bind (records_classify hanswers p.indent raw) ?_⟩
  rintro _ result events ⟨rfl, hshown, htold⟩
  have hall : ∀ e ∈ .parse request.document (.ok document) ::
      .compile request.query (.ok query) :: .evaluate query document (.ok raw) :: events,
      account e :=
    List.forall_mem_cons.mpr ⟨hparse, List.forall_mem_cons.mpr
      ⟨hcompile, List.forall_mem_cons.mpr ⟨hevaluate, htold⟩⟩⟩
  cases result with
  | ok value => exact records_pure ⟨rfl, by rw [List.append_nil]; exact ⟨.success hshown, hall⟩⟩
  | error i =>
    refine records_pure ⟨rfl, ?_⟩
    rw [List.append_nil]
    exact ⟨.unwritten hshown (reported_inMarkup i), hall⟩

/-- A run does what it does without a record, and appends its transcript. The answers in it are as
is told of the engine. -/
theorem records_run_answers (hanswers : p.engine.Answers account) (request : Request) :
    Records (p.recorded.run request.document request.query) (p.run request.document request.query)
      fun outcome outcome' events => outcome' = outcome ∧ Transcript p request events outcome ∧
        ∀ e ∈ events, account e := by
  refine (records_phases hanswers request).bind ?_
  rintro _ result events ⟨rfl, htranscript⟩
  cases result with
  | ok evaluation => exact records_pure ⟨rfl, by rwa [List.append_nil]⟩
  | error diagnostic => exact records_pure ⟨rfl, by rwa [List.append_nil]⟩

theorem records_run (p : Pipeline m D Q) (request : Request) :
    Records (p.recorded.run request.document request.query) (p.run request.document request.query)
      fun outcome outcome' events =>
        outcome' = outcome ∧ Transcript p request events outcome :=
  (records_run_answers (answers_truthful p.engine) request).mono fun _ _ _ h => ⟨h.1, h.2.1⟩

/-- The runs of a pipeline, one after the other, whatever its engine does. Each run ends as its
transcript tells, the record grows by one transcript after the other, the calls in each of them are
made in order and stop somewhere, and without a record the outcomes are the same. -/
theorem runs_recorded (p : Pipeline m D Q) (requests : List Request)
    (earlier : List (Event m D Q)) :
    Returns ((requests.mapM fun r => p.recorded.run r.document r.query).run earlier) (fun result =>
      ∃ runs : List (Outcome × List (Event m D Q)),
        result = (runs.map Prod.fst, earlier ++ runs.flatMap Prod.snd) ∧
        List.Forall₂ (fun request run => Transcript p request run.2 run.1 ∧
          calls run.2 <+: [.parsing, .compiling, .evaluating]) requests runs ∧
        calls result.2 = calls earlier ++ runs.flatMap fun run => calls run.2) ∧
      Prod.fst <$> (requests.mapM fun r => p.recorded.run r.document r.query).run earlier =
        requests.mapM fun r => p.run r.document r.query := by
  have hrecords := records_mapM (records_run p) requests
  refine ⟨(hrecords.returns earlier).mono ?_, hrecords.run_eq (fun _ _ _ h => h.1) earlier⟩
  rintro ⟨outcomes, events⟩ ⟨_, more, ⟨-, runs, rfl, rfl, hruns⟩, rfl⟩
  refine ⟨runs, rfl, hruns.imp fun _ _ h => ⟨h, h.calls_prefix⟩, ?_⟩
  rw [calls, List.filterMap_append, List.filterMap_flatMap]
  rfl

end

/-- A pipeline that takes all texts but the empty one: that is no document, and a query that makes
the engine crash. -/
def scripted : Pipeline Id String String where
  engine :=
    { parse text :=
        if text = "" then .error (.failure ⟨"Empty", "no document", some .start, [], none⟩)
        else .ok text
      compile text := if text = "" then .error (.crash (.message "no query")) else .ok text
      declared _ := .string
      evaluate query document := .ok ⟨some (query ++ document), none, none, none, ""⟩ }
  indent := ⟨2, ' '⟩
  clock := Duration.ofNanoseconds 0

/-- A run that gets through, one that ends at once, and one that ends with a crash. -/
theorem runs_recorded_scripted :
    ∃ runs : List (Outcome × List (Event Id String String)),
      List.Forall₂ (fun request run => Transcript scripted request run.2 run.1 ∧
        calls run.2 <+: [.parsing, .compiling, .evaluating])
        [⟨"a", "b"⟩, ⟨"", "b"⟩, ⟨"a", ""⟩] runs ∧
      runs.flatMap (fun run => calls run.2) =
        [.parsing, .compiling, .evaluating, .parsing, .parsing, .compiling] := by
  obtain ⟨runs, -, hruns, hcalls⟩ :=
    returns_id_iff.mp (runs_recorded scripted [⟨"a", "b"⟩, ⟨"", "b"⟩, ⟨"a", ""⟩] []).1
  refine ⟨runs, hruns, hcalls.symm.trans ?_⟩
  rfl

end XPathBench
