import Mathlib.Data.List.DropRight
import XPathBench.Proofs.Text.Literals
import XPathBench.Proofs.Text.Runs
import XPathBench.ResultValue

/-!
# Reports of values can be read back

The report of a success ends in five lines of its own, whatever stands above them. Without these it
tells the announced type and the value, for all values but numbers and node-sets.

* `linesOf_report`: the lines of a report
* `shown_injective`: what the lines above the last five tell
* `report_faithful`: both, and the lines of a text
-/

namespace XPathBench

/-- The parts of a text between its line feeds. -/
def linesOf (text : String) : List (List Char) := text.toList.splitOn '\n'

theorem linesOf_injective {text text' : String} (h : linesOf text = linesOf text') :
    text = text' := by
  have hjoined := congrArg (['\n'].intercalate ·) h
  simp only [linesOf, List.intercalate_splitOn] at hjoined
  exact String.toList_inj.mp hjoined

theorem linesOf_intercalate_append {front back : List String} (hfront : front ≠ [])
    (hback : back ≠ []) : linesOf ("\n".intercalate (front ++ back)) =
      linesOf ("\n".intercalate front) ++ linesOf ("\n".intercalate back) := by
  rw [String.intercalate_append_of_ne_nil hfront hback, linesOf, String.toList_append,
    String.toList_append, List.append_assoc]
  exact List.splitOn_append_cons_self _ _

/-- Texts without line feeds are the lines of what they are joined to. -/
theorem linesOf_intercalate {texts : List String} (hne : texts ≠ [])
    (h : ∀ text ∈ texts, '\n' ∉ text.toList) :
    linesOf ("\n".intercalate texts) = texts.map String.toList := by
  rw [linesOf, String.toList_intercalate]
  refine List.splitOn_intercalate '\n' ?_ (by simpa using hne)
  simpa using h

/-! ## What has no line feeds -/

theorem not_mem_toDigits {n : Nat} {c : Char} (hc : c.isDigit = false) : c ∉ Nat.toDigits 10 n :=
  fun h => Bool.false_ne_true
    (hc.symm.trans (Nat.isDigit_of_mem_toDigits (by decide) (by decide) h))

theorem Duration.not_mem_padded {width n : Nat} {c : Char} (hc : c.isDigit = false) :
    c ∉ (padded width n).toList := by
  have hzero : c ≠ '0' := by
    rintro rfl
    cases hc
  simp [padded, not_mem_toDigits hc, hzero]

theorem Duration.clock_eq (d : Duration) : d.clock =
    padded 2 (d.seconds / 3600) ++ ":" ++ padded 2 (d.seconds / 60 % 60) ++ ":" ++
      padded 2 (d.seconds % 60) ++ ("." ++ padded 7 (d.nanoseconds / 100)) := rfl

theorem Duration.not_mem_clock (d : Duration) : '\n' ∉ d.clock.toList := by
  have hpadded (width n : Nat) : '\n' ∉ (padded width n).toList := not_mem_padded rfl
  simp [clock_eq, hpadded]

/-! ## Names of types -/

theorem ResultType.name_injective {a b : ResultType} (h : a.name = b.name) : a = b := by
  revert h
  cases a <;> cases b <;> decide

theorem RuntimeType.name_injective {a b : RuntimeType} (h : a.name = b.name) : a = b := by
  revert h
  cases a <;> cases b <;> decide

theorem ResultType.isAlpha_name (a : ResultType) : a.name.toList.all Char.isAlpha = true := by
  cases a <;> rfl

theorem RuntimeType.isAlpha_name (a : RuntimeType) : a.name.toList.all Char.isAlpha = true := by
  cases a <;> rfl

theorem not_mem_of_all {good : Char → Bool} {cs : List Char} {c : Char} (h : cs.all good = true)
    (hc : good c = false) : c ∉ cs := fun hmem =>
  Bool.false_ne_true (hc.symm.trans (List.all_eq_true.mp h c hmem))

namespace ResultValue

/-! ## The frame of a report -/

variable {declared declared' : ResultType} {v v' : ResultValue}

/-- The first line of a report. -/
def header (declared : ResultType) (v : ResultValue) : String :=
  s!"[ResultType.{declared.name} -> {v.runtimeType.name}]: {v.headline}"

/-- What stands above the last five lines of a report. -/
def shown (declared : ResultType) (v : ResultValue) : String :=
  "\n".intercalate (header declared v :: v.details)

/-- The last five lines of every report. -/
def frame (t : PhaseTimings) : List String :=
  ["", "XML parse time     " ++ t.parse.clock, "XPath compile time " ++ t.compile.clock,
    "Evaluation time    " ++ t.evaluate.clock, sentinel]

theorem linesOf_frame (t : PhaseTimings) :
    linesOf ("\n".intercalate (frame t)) = (frame t).map String.toList := by
  refine linesOf_intercalate (List.cons_ne_nil _ _) ?_
  simp [frame, sentinel, Duration.not_mem_clock]

theorem linesOf_report (declared : ResultType) (v : ResultValue) (t : PhaseTimings) :
    linesOf (report declared v t) = linesOf (shown declared v) ++ (frame t).map String.toList := by
  have hframe : frame t ≠ [] := List.cons_ne_nil _ _
  have hreport : report declared v t =
    "\n".intercalate ((header declared v :: v.details) ++ frame t) := rfl
  rw [hreport, linesOf_intercalate_append (List.cons_ne_nil _ _) hframe, linesOf_frame, shown]

theorem rdrop_linesOf_report (declared : ResultType) (v : ResultValue) (t : PhaseTimings) :
    (linesOf (report declared v t)).rdrop 5 = linesOf (shown declared v) := by
  rw [linesOf_report]
  exact List.rdrop_append_length

/-! ## What a report tells -/

theorem header_eq (declared : ResultType) (v : ResultValue) : header declared v =
    "[ResultType." ++ (declared.name ++ (" -> " ++ (v.runtimeType.name ++
      ("]: " ++ v.headline)))) := by
  simp only [← String.append_assoc]
  rfl

theorem headline_suffix_header (declared : ResultType) (v : ResultValue) :
    v.headline.toList <:+ (header declared v).toList := by
  simp only [header_eq, String.toList_append, ← List.append_assoc]
  exact List.suffix_append _ _

/-- A report shows the announced type, the type of the value and the lines of the value. -/
theorem shown_eq (declared : ResultType) (v : ResultValue) : shown declared v =
    "[ResultType." ++ (declared.name ++ (" -> " ++ (v.runtimeType.name ++
      ("]: " ++ "\n".intercalate v.lines)))) := by
  rw [shown, lines, header_eq]
  cases v.details with
  | nil => simp only [String.intercalate_singleton]
  | cons line rest => simp only [String.intercalate_cons_cons, String.append_assoc]

theorem toList_shown (declared : ResultType) (v : ResultValue) : (shown declared v).toList =
    "[ResultType.".toList ++ (declared.name.toList ++ ' ' :: ("-> ".toList ++
      (v.runtimeType.name.toList ++ ']' ::
        (": ".toList ++ ("\n".intercalate v.lines).toList)))) := by
  simp only [shown_eq, String.toList_append]
  rfl

/-- The names of types hold neither blanks nor brackets. -/
theorem shown_injective (h : shown declared v = shown declared' v') :
    declared = declared' ∧ v.runtimeType = v'.runtimeType ∧
      "\n".intercalate v.lines = "\n".intercalate v'.lines := by
  have hchars := congrArg String.toList h
  rw [toList_shown, toList_shown] at hchars
  obtain ⟨hdeclared, hchars⟩ := Text.append_cons_inj ' '
    (not_mem_of_all declared.isAlpha_name rfl) (not_mem_of_all declared'.isAlpha_name rfl)
    (List.append_cancel_left hchars)
  obtain ⟨hruntime, hchars⟩ := Text.append_cons_inj ']'
    (not_mem_of_all v.runtimeType.isAlpha_name rfl)
    (not_mem_of_all v'.runtimeType.isAlpha_name rfl) (List.append_cancel_left hchars)
  exact ⟨ResultType.name_injective (String.toList_inj.mp hdeclared),
    RuntimeType.name_injective (String.toList_inj.mp hruntime),
    String.toList_inj.mp (List.append_cancel_left hchars)⟩

/-! ## The lines of a text -/

theorem not_mem_headline (s : String) : '\n' ∉ (text s).headline.toList := by
  simp [headline, not_mem_toDigits (c := '\n') rfl]

theorem not_mem_header (declared : ResultType) (s : String) :
    '\n' ∉ (header declared (text s)).toList := by
  have hdeclared : '\n' ∉ declared.name.toList := not_mem_of_all declared.isAlpha_name rfl
  simp [header_eq, hdeclared, runtimeType, RuntimeType.name, not_mem_headline]

theorem not_mem_details (s : String) : ∀ line ∈ (text s).details, '\n' ∉ line.toList := by
  have hescape : '\n' ∉ (Literal.escape s).toList := fun h =>
    Literal.not_break_of_mem_escape h (.inr rfl)
  simp [details, hescape]

theorem linesOf_lines_text (s : String) : linesOf ("\n".intercalate (text s).lines) =
    [(text s).headline.toList, [], (Literal.escape s).toList] :=
  linesOf_intercalate (List.cons_ne_nil _ _)
    (List.forall_mem_cons.mpr ⟨not_mem_headline s, not_mem_details s⟩)

theorem linesOf_shown_text (declared : ResultType) (s : String) :
    linesOf (shown declared (text s)) =
      [(header declared (text s)).toList, [], (Literal.escape s).toList] :=
  linesOf_intercalate (List.cons_ne_nil _ _)
    (List.forall_mem_cons.mpr ⟨not_mem_header declared s, not_mem_details s⟩)

/-- The lines of a value tell the value, if it is no number and no node-set. -/
theorem lines_injective (htype : v.runtimeType = v'.runtimeType) (hnumber : v.runtimeType ≠ .number)
    (hnodes : v.runtimeType ≠ .nodeSet)
    (h : "\n".intercalate v.lines = "\n".intercalate v'.lines) : v = v' := by
  cases v with
  | number x => exact absurd rfl hnumber
  | nodeSet blocks => exact absurd rfl hnodes
  | text s =>
    cases v' with
    | text s' =>
      have hlines := congrArg linesOf h
      simp only [linesOf_lines_text, List.cons.injEq, String.toList_inj] at hlines
      rw [Literal.escape_inj hlines.2.2.1]
    | _ => cases htype
  | boolean b =>
    cases v' with
    | boolean b' =>
      simp only [lines, details, headline, String.intercalate_singleton] at h
      have hb : b = b' := by
        revert h
        cases b <;> cases b' <;> decide
      rw [hb]
    | _ => cases htype
  | unrecognized s =>
    cases v' with
    | unrecognized s' =>
      simp only [lines, details, headline, String.intercalate_singleton,
        String.append_right_inj] at h
      rw [h]
    | _ => cases htype

/-! ## Reports -/

/-- Every report ends in five lines of its own. Those above tell the announced type and the value,
unless it is a number or a node-set. A text has three of them: the first ends in its length, and the
third is a literal that denotes it. -/
theorem report_faithful :
    (∀ (declared : ResultType) (v : ResultValue) (t : PhaseTimings), ∃ above, above ≠ [] ∧
      linesOf (report declared v t) = above ++ [[], ("XML parse time     " ++ t.parse.clock).toList,
        ("XPath compile time " ++ t.compile.clock).toList,
        ("Evaluation time    " ++ t.evaluate.clock).toList, "End of line.".toList]) ∧
    (∀ (declared declared' : ResultType) (v v' : ResultValue) (t t' : PhaseTimings),
      v.runtimeType ≠ .number → v.runtimeType ≠ .nodeSet →
        (linesOf (report declared v t)).rdrop 5 = (linesOf (report declared' v' t')).rdrop 5 →
          declared = declared' ∧ v = v') ∧
    ∀ (declared : ResultType) (s : String) (t : PhaseTimings), ∃ first third,
      (linesOf (report declared (text s) t)).rdrop 5 = [first, [], third] ∧
        ("\x7bLength=" ++ toString s.length ++ "\x7d").toList <:+ first ∧
        (∀ c ∈ third, ¬ (c = '\r' ∨ c = '\n')) ∧
        Literal.unescape (String.ofList third) = .ok s := by
  refine ⟨fun declared v t => ?_, fun declared declared' v v' t t' hnumber hnodes h => ?_,
    fun declared s t => ?_⟩
  · exact ⟨linesOf (shown declared v), List.splitOn_ne_nil _ _, linesOf_report declared v t⟩
  · rw [rdrop_linesOf_report, rdrop_linesOf_report] at h
    obtain ⟨hdeclared, htype, hlines⟩ := shown_injective (linesOf_injective h)
    exact ⟨hdeclared, lines_injective htype hnumber hnodes hlines⟩
  · refine ⟨_, _, (rdrop_linesOf_report declared (text s) t).trans (linesOf_shown_text declared s),
      headline_suffix_header declared (text s), fun c hc => Literal.not_break_of_mem_escape hc, ?_⟩
    rw [String.ofList_toList, Literal.unescape_escape]

/-- A value that looks like the end of its report, in runs that took different times. -/
theorem report_faithful_lookalike :
    let v := unrecognized "\n\nXML parse time     00:00:00.0000000\nEnd of line."
    let late : PhaseTimings := ⟨⟨3600, 100⟩, .zero, .zero⟩
    v.runtimeType ≠ .number ∧ v.runtimeType ≠ .nodeSet ∧
      (linesOf (report .any v .zero)).rdrop 5 = (linesOf (report .any v late)).rdrop 5 ∧
        ResultType.any = .any ∧ v = v := by
  intro v late
  have h : (linesOf (report .any v .zero)).rdrop 5 = (linesOf (report .any v late)).rdrop 5 := by
    rw [rdrop_linesOf_report, rdrop_linesOf_report]
  exact ⟨by decide, by decide, h, report_faithful.2.1 _ _ _ _ _ _ (by decide) (by decide) h⟩

end ResultValue

end XPathBench
