import XPathBench.Proofs.Json
import XPathBench.Proofs.Reports
import XPathBench.Summary

/-!
# The machine-readable form loses nothing

The JSON text of an outcome tells all of it but the exact time that it took, unless the value is a
number. It tells the sizes of texts and node-sets as they are.

* `Outcome.numberFree_summary`: what is written has no floating-point numbers
* `Outcome.summary_injective`: what is written tells the outcome
* `Outcome.json_faithful`: so does its text
-/

namespace XPathBench

theorem NodeKind.name_injective {a b : NodeKind} (h : a.name = b.name) : a = b := by
  revert h
  cases a <;> cases b <;> decide

theorem Phase.name_injective {a b : Phase} (h : a.name = b.name) : a = b := by
  revert h
  cases a <;> cases b <;> decide

/-- The member of an object with a name. -/
def Json.member? (name : String) : Json → Option Json
  | object members => members.lookup name
  | _ => none

open Json (NumberFree)

/-! ## Nodes and values -/

theorem NodeBlock.numberFree_summary (b : NodeBlock) : NumberFree b.summary := by
  simp [summary]

theorem NodeBlock.summary_injective {b b' : NodeBlock} (h : b.summary = b'.summary) : b = b' := by
  obtain ⟨kind, markup⟩ := b
  obtain ⟨kind', markup'⟩ := b'
  simp only [summary, Json.object.injEq, List.cons.injEq, Prod.mk.injEq, Json.text.injEq, true_and,
    and_true] at h
  obtain ⟨hkind, rfl⟩ := h
  obtain rfl := NodeKind.name_injective hkind
  rfl

namespace ResultValue

variable {v v' : ResultValue}

theorem numberFree_summary (h : v.runtimeType ≠ .number) : NumberFree v.summary := by
  cases v with
  | number x => exact absurd rfl h
  | nodeSet blocks => simp [summary, NodeBlock.numberFree_summary]
  | _ => simp [summary]

theorem runtimeType_of_summary_eq (h : v.summary = v'.summary) :
    v.runtimeType = v'.runtimeType := by
  simp only [summary, Json.object.injEq, List.cons.injEq, Prod.mk.injEq, Json.text.injEq,
    true_and] at h
  exact RuntimeType.name_injective h.1

theorem summary_injective (hnumber : v.runtimeType ≠ .number) (h : v.summary = v'.summary) :
    v = v' := by
  have htype := runtimeType_of_summary_eq h
  cases v with
  | number x => exact absurd rfl hnumber
  | text s =>
    cases v' with
    | text s' =>
      simp only [summary, Json.object.injEq, List.cons.injEq, Prod.mk.injEq, Json.text.injEq,
        true_and, and_true] at h
      rw [h.2.2]
    | _ => cases htype
  | boolean b =>
    cases v' with
    | boolean b' =>
      simp only [summary, Json.object.injEq, List.cons.injEq, Prod.mk.injEq, Json.bool.injEq,
        true_and, and_true] at h
      rw [h.2]
    | _ => cases htype
  | nodeSet blocks =>
    cases v' with
    | nodeSet blocks' =>
      simp only [summary, Json.object.injEq, List.cons.injEq, Prod.mk.injEq, Json.array.injEq,
        true_and, and_true] at h
      have hblocks := List.map_injective_iff.mpr (fun _ _ => NodeBlock.summary_injective) h.2.2
      rw [hblocks]
    | _ => cases htype
  | unrecognized s =>
    cases v' with
    | unrecognized s' =>
      simp only [summary, Json.object.injEq, List.cons.injEq, Prod.mk.injEq, Json.text.injEq,
        true_and, and_true] at h
      rw [h.2]
    | _ => cases htype

end ResultValue

/-! ## Outcomes -/

/-- A place is told by its line and its column. -/
theorem position_eq {p p' : Option Position} (hline : p.map (·.line) = p'.map (·.line))
    (hcolumn : p.map (·.column) = p'.map (·.column)) : p = p' := by
  cases p with
  | none =>
    cases p' with
    | none => rfl
    | some q => cases hline
  | some q =>
    cases p' with
    | none => cases hline
    | some q' =>
      obtain ⟨line, column⟩ := q
      obtain ⟨line', column'⟩ := q'
      cases hline
      cases hcolumn
      rfl

theorem Diagnostic.summary_injective {d d' : Diagnostic} (h : d.summary = d'.summary) : d = d' := by
  obtain ⟨phase, kind, message, position, sourceLine, trace⟩ := d
  obtain ⟨phase', kind', message', position', sourceLine', trace'⟩ := d'
  simp only [summary, Json.object.injEq, List.cons.injEq, Prod.mk.injEq, Json.text.injEq, true_and,
    and_true] at h
  obtain ⟨hphase, rfl, rfl, hline, hcolumn, hsource, htrace⟩ := h
  obtain rfl := Phase.name_injective hphase
  obtain rfl := position_eq (Json.ofNatural?_injective hline) (Json.ofNatural?_injective hcolumn)
  obtain rfl := Json.ofText?_injective hsource
  obtain rfl := Json.ofText?_injective htrace
  rfl

namespace Outcome

variable {o o' : Outcome}

theorem numberFree_summary (h : ∀ e ∈ o.evaluation?, e.value.runtimeType ≠ .number) :
    NumberFree o.summary := by
  cases o with
  | success e =>
    have hvalue := ResultValue.numberFree_summary (h e rfl)
    simp [summary, hvalue, PhaseTimings.summary]
  | failure d => simp [summary, Diagnostic.summary]

theorem summary_injective (h : ∀ e ∈ o.evaluation?, e.value.runtimeType ≠ .number)
    (hsummary : o.summary = o'.summary) :
    (∃ e e', o = .success e ∧ o' = .success e' ∧ e.declared = e'.declared ∧ e.value = e'.value) ∨
      ∃ d, o = .failure d ∧ o' = .failure d := by
  cases o with
  | success e =>
    cases o' with
    | success e' =>
      simp only [summary, Json.object.injEq, List.cons.injEq, Prod.mk.injEq, Json.text.injEq,
        true_and] at hsummary
      obtain ⟨hdeclared, -, hvalue, -⟩ := hsummary
      exact .inl ⟨e, e', rfl, rfl, ResultType.name_injective hdeclared,
        ResultValue.summary_injective (h e rfl) hvalue⟩
    | failure d => simp [summary] at hsummary
  | failure d =>
    cases o' with
    | success e => simp [summary] at hsummary
    | failure d' =>
      simp only [summary, Json.object.injEq, List.cons.injEq, Prod.mk.injEq, true_and,
        and_true] at hsummary
      exact .inr ⟨d, rfl, by rw [Diagnostic.summary_injective hsummary]⟩

/-- What the JSON form of an outcome records of the size of its value: for a text the number of its
characters, and for a node-set the number of the nodes listed. -/
def Recorded (j : Json) : ResultValue → Prop
  | .text s => ∃ v, j.member? "value" = some v ∧ v.member? "value" = some (.text s) ∧
      v.member? "length" = some (.natural s.length)
  | .nodeSet blocks => ∃ v nodes, j.member? "value" = some v ∧
      v.member? "nodes" = some (.array nodes) ∧ v.member? "count" = some (.natural nodes.length) ∧
        nodes.length = blocks.length
  | _ => True

theorem recorded_summary (e : Evaluation) : Recorded (success e).summary e.value := by
  obtain ⟨declared, value, timings⟩ := e
  cases value with
  | text s => exact ⟨_, rfl, rfl, rfl⟩
  | nodeSet blocks =>
    have hlength : (blocks.map NodeBlock.summary).length = blocks.length := List.length_map ..
    exact ⟨_, _, rfl, rfl, by rw [hlength]; rfl, hlength⟩
  | _ => trivial

/-- Outcomes of one JSON text are successes of one announced type and one value, or failures of one
diagnostic, unless a value is a number. The text denotes one JSON value, in which the size of a text
is the number of its characters, and that of a node-set the number of the nodes listed. -/
theorem json_faithful (h : ∀ e ∈ o.evaluation?, e.value.runtimeType ≠ .number) :
    (∀ o' : Outcome, (∀ e ∈ o'.evaluation?, e.value.runtimeType ≠ .number) → o.json = o'.json →
      (∃ e e', o = .success e ∧ o' = .success e' ∧ e.declared = e'.declared ∧
        e.value = e'.value) ∨ ∃ d, o = .failure d ∧ o' = .failure d) ∧
    ∃ j, (∀ j', NumberFree j' ∧ j'.pretty = o.json ↔ j' = j) ∧
      ∀ e ∈ o.evaluation?, Recorded j e.value := by
  have hfree := numberFree_summary h
  refine ⟨fun o' h' hjson => ?_, o.summary, fun j' => ?_, fun e he => ?_⟩
  · exact summary_injective h (Json.pretty_injective hfree (numberFree_summary h') hjson)
  · constructor
    · rintro ⟨hfree', hjson⟩
      exact Json.pretty_injective hfree' hfree hjson
    · rintro rfl
      exact ⟨hfree, rfl⟩
  · cases o with
    | success e' =>
      obtain rfl := Option.some.inj he
      exact recorded_summary e'
    | failure d => cases he

/-- Runs whose times differ by less than is shown have one JSON text. -/
theorem json_faithful_late :
    let v := ResultValue.text "\"\\\x01\n"
    let o := success ⟨.any, v, .zero⟩
    let late := success ⟨.any, v, ⟨⟨0, 999⟩, .zero, .zero⟩⟩
    o.json = late.json ∧
      (∃ e e', o = .success e ∧ late = .success e' ∧ e.declared = e'.declared ∧
        e.value = e'.value) ∧
      ∃ j, (NumberFree j ∧ j.pretty = late.json) ∧ Recorded j v := by
  intro v o late
  have htimes : PhaseTimings.zero.summary = PhaseTimings.summary ⟨⟨0, 999⟩, .zero, .zero⟩ := by
    simp [PhaseTimings.summary, PhaseTimings.total, PhaseTimings.zero, Duration.inMicroseconds,
      Duration.inNanoseconds, Duration.ofNanoseconds, Duration.zero]
  have hjson : o.json = late.json := by
    rw [json, json, summary, summary, htimes]
  obtain ⟨hsame, j, hj, hrecorded⟩ := json_faithful (o := o) fun e he => by
    cases he
    decide
  have houtcomes := hsame late (fun e he => by cases he; decide) hjson
  refine ⟨hjson, houtcomes.resolve_right ?_, j, ?_, hrecorded _ rfl⟩
  · rintro ⟨d, hd, -⟩
    simp [o] at hd
  · rw [← hjson]
    exact (hj j).mpr rfl

end Outcome

end XPathBench
