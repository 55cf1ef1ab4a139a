import XPathBench.Diagnostic
import XPathBench.Proofs.Text.Lines
import XPathBench.Proofs.Text.Trims

/-!
# Diagnostics of failures

* `Diagnostic.Reports`: what a diagnostic keeps of a failure
* `Diagnostic.blockWith`: the block with some lines below the header
* `Diagnostic.PointsInto`, `Diagnostic.PointsNowhere`: diagnostics with a place in a text, and
  without
* `Diagnostic.ShowsCaptured`: diagnostics that show what was captured of the calls
* `pointsInto_ofOffset`: every offset is a place in the text
-/

namespace XPathBench

/-- The diagnostic reports a failure in a phase over a source text: all that the engine tells of it,
and the line that its position lies on, if the text has that line. -/
structure Diagnostic.Reports (d : Diagnostic) (phase : Phase) (source : String)
    (f : EngineFailure) : Prop where
  phase : d.phase = phase
  kind : d.kind = f.kind
  message : d.message = f.message
  position : d.position = f.position
  trace : d.trace = f.trace
  pointed : d.sourceLine.isSome ↔ ∃ position, f.position = some position ∧
    1 ≤ position.line ∧ position.line ≤ (sourceLines source).length
  sourceLine : ∀ line, d.sourceLine = some line ↔ ∃ position, f.position = some position ∧
    1 ≤ position.line ∧ (sourceLines source)[position.line - 1]? = some line

theorem trace_ofFailure (phase : Phase) (f : EngineFailure) (source : Option String) :
    (Diagnostic.ofFailure phase f source).trace = f.trace := by
  rw [Diagnostic.ofFailure]

theorem sourceLine_ofFailure (phase : Phase) (source : String) (f : EngineFailure) :
    (Diagnostic.ofFailure phase f (some source)).sourceLine =
      f.position.bind fun position => lineAt (sourceLines source) position.line := rfl

theorem reports_ofFailure (phase : Phase) (source : String) (f : EngineFailure) :
    (Diagnostic.ofFailure phase f (some source)).Reports phase source f where
  phase := rfl
  kind := rfl
  message := rfl
  position := rfl
  trace := trace_ofFailure phase f _
  pointed := by
    rw [sourceLine_ofFailure]
    cases f.position with
    | none => simp
    | some position => simp [isSome_lineAt_iff]
  sourceLine line := by
    rw [sourceLine_ofFailure]
    cases f.position with
    | none => simp
    | some position => simp [lineAt_eq_some_iff]

/-! ## Blocks -/

namespace Diagnostic

/-- The block with some lines below the header. -/
def blockWith (d : Diagnostic) (below : List String) : String :=
  "\n".intercalate ([d.header] ++ below ++ d.trace.toList ++ ["", "End of line."])

/-- The diagnostic points at a character of a line of the text, or directly behind the line, and its
block shows the line and the caret. -/
def PointsInto (d : Diagnostic) (source : String) : Prop :=
  ∃ position line, d.position = some position ∧ d.sourceLine = some line ∧
    1 ≤ position.line ∧ (sourceLines source)[position.line - 1]? = some line ∧
      1 ≤ position.column ∧ position.column ≤ line.length + 1 ∧
        d.display =
          d.blockWith [line, String.ofList (List.replicate (position.column - 1) ' ') ++ "^"]

/-- The diagnostic has no place in any text, and its block shows none. -/
def PointsNowhere (d : Diagnostic) : Prop :=
  d.position = none ∧ d.sourceLine = none ∧ d.display = d.blockWith []

/-- The diagnostic shows what was captured, without the white space at its end, and has no trace if
nothing is left of it. -/
def ShowsCaptured (d : Diagnostic) (backtrace : Option String) : Prop :=
  ∃ kept, Text.EndTrimmed (backtrace.getD "") kept ∧
    d.trace = if kept = "" then none else some kept

variable {d : Diagnostic}

theorem display_pointing {position : Position} {line : String}
    (hposition : d.position = some position) (hline : d.sourceLine = some line) :
    d.display = d.blockWith [line, caret position.column] := by
  have hpointer : d.pointer d.sourceLine = [line, caret position.column] := by
    unfold pointer
    rw [hposition, hline]
  rw [display, block, hpointer]
  rfl

theorem display_of_position_none (hposition : d.position = none) : d.display = d.blockWith [] := by
  have hpointer : d.pointer d.sourceLine = [] := by
    unfold pointer
    rw [hposition]
  rw [display, block, hpointer]
  rfl

theorem pointsNowhere_plain (phase : Phase) (kind message : String) :
    (plain phase kind message).PointsNowhere :=
  ⟨rfl, rfl, display_of_position_none rfl⟩

theorem ShowsCaptured.trace_eq_none {backtrace : Option String} (h : d.ShowsCaptured backtrace)
    (hnone : backtrace = none) : d.trace = none := by
  subst hnone
  obtain ⟨kept, hkept, htrace⟩ := h
  rw [htrace, if_pos]
  exact hkept.trimEnd_eq.symm.trans rfl

end Diagnostic

/-! ## Failures of an engine -/

variable {f : EngineFailure}

/-- Without a position a failure does not show its source. -/
theorem ofFailure_of_position_none (h : f.position = none) (phase : Phase)
    (source : Option String) :
    Diagnostic.ofFailure phase f source = ⟨phase, f.kind, f.message, none, none, f.trace⟩ := by
  rw [Diagnostic.ofFailure, h]
  cases source <;> rfl

theorem pointsNowhere_ofFailure (h : f.position = none) (phase : Phase) (source : Option String) :
    (Diagnostic.ofFailure phase f source).PointsNowhere := by
  rw [ofFailure_of_position_none h]
  exact ⟨rfl, rfl, Diagnostic.display_of_position_none rfl⟩

/-- The trace of a failure without causes is what was captured. -/
theorem showsCaptured_ofFailure (h : f.causes = []) (phase : Phase) (source : Option String) :
    (Diagnostic.ofFailure phase f source).ShowsCaptured f.backtrace := by
  refine ⟨_, Text.endTrimmed_trimEnd _, ?_⟩
  rw [trace_ofFailure, EngineFailure.trace, h]
  simp

/-- Wherever an offset points, a failure that is reported there points into the text. -/
theorem pointsInto_ofOffset (phase : Phase) (kind message source : String) (offset : Nat)
    (backtrace : Option String) :
    (Diagnostic.ofFailure phase ⟨kind, message, some (.ofOffset source offset), [], backtrace⟩
      (some source)).PointsInto source := by
  obtain ⟨line, hline, hnumber, hpos, hlast⟩ := Position.exists_line source offset
  have hsource : lineAt (sourceLines source) (Position.ofOffset source offset).line = some line :=
    lineAt_eq_some_iff.mpr ⟨hnumber, hline⟩
  refine ⟨_, line, rfl, hsource, hnumber, hline, hpos, hlast, ?_⟩
  rw [Diagnostic.display_pointing rfl hsource, Diagnostic.caret, Nat.max_eq_left hpos]

end XPathBench
