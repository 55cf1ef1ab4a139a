import XPathBench.Proofs.CommandLine.Outputs
import XPathBench.Proofs.Text.Breaks
import XPathBench.Proofs.Xml.Remarks

/-!
# Line numbers without encodings

An encoding may stand on a line of its own, and the blanks before it are taken out with it. Behind
it the lines of a text are then numbered lower, by the breaks that were taken out.

* `line_withoutEncoding`: the lines of a place in a text with its encoding and without
* `lines_behind_encoding`: which texts lose breaks, and the lines that commands report
-/

namespace XPathBench

open Text (Apart byteSize breaks)
open XPath (Bindings runResult)
open Xml (Document withoutEncoding)
open Xml.EncodingDeclaration (EncodingParts)

variable {text : String} {kept removed rest : List Char}

/-! ## Lines behind the encoding -/

theorem Text.apart_of_quote {front : List Char}
    (h : ∃ quote, (quote = '\'' ∨ quote = '"') ∧ front.getLast? = some quote) (back : List Char) :
    Apart front back := by
  obtain ⟨quote, hquote, hlast⟩ := h
  exact apart_of_getLast? hlast (by rintro rfl; simp at hquote)

namespace CommandLine

/-- Behind the encoding, lines are numbered lower by the breaks in what is taken out. -/
theorem line_withoutEncoding (hparts : EncodingParts kept removed)
    (h : text.toList = kept ++ (removed ++ rest)) (offset : Nat) :
    (Position.ofOffset text (byteSize (kept ++ removed) + offset)).line =
      (Position.ofOffset (withoutEncoding text) (byteSize kept + offset)).line +
        breaks removed := by
  have hkept := Text.apart_of_quote hparts.getLast?_kept
  have hboth (cs : List Char) : Apart (kept ++ removed) cs := by
    obtain ⟨quote, hquote, hlast⟩ := hparts.getLast?_removed
    refine Text.apart_of_quote ⟨quote, hquote, ?_⟩ cs
    rw [List.getLast?_append, hlast, Option.some_or]
  have hseen := Position.line_ofOffset (h.trans (List.append_assoc ..).symm) hboth offset
  have htold := Position.line_ofOffset (Xml.toList_withoutEncoding hparts h) hkept offset
  have hbreaks := Text.breaks_append (hkept removed)
  omega

/-! ## Reports -/

/-- What both commands report of a text that is no document, no backtraces asked for. -/
structure Reported (text : String) (d : Diagnostic) : Prop where
  eval : ∀ bindings indent query, runResult bindings indent text query = .error d
  format : ∀ indent, formatOutput indent text = ⟨d.display, diagnosticExitCode⟩

theorem exists_reported {e : Xml.SyntaxError} (h : Document.parse text = .error e) :
    ∃ d, Reported text d ∧ d.phase = .parsing ∧ d.position = some (.ofOffset text e.offset) := by
  obtain ⟨f, hload, hposition⟩ : ∃ f, Document.load text = .error f ∧
      f.position = some (.ofOffset text e.offset) := by
    unfold Document.load
    rw [h]
    exact ⟨_, rfl, rfl⟩
  exact ⟨.ofFailure .parsing (f.raised none) (some text),
    ⟨fun bindings indent query => runResult_of_unreadable hload bindings indent query .none,
      fun indent => formatOutput_of_unreadable indent hload none⟩, rfl, hposition⟩

/-- A text changes without its encoding if it has one. Then each place behind the encoding is on a
line numbered lower by the breaks in what is taken out, and on that line commands report a failure
to read the text there. So lines keep their numbers if and only if no break is taken out. -/
theorem lines_behind_encoding (text : String) :
    (withoutEncoding text ≠ text ↔ ∃ kept removed rest, EncodingParts kept removed ∧
      text.toList = kept ++ (removed ++ rest)) ∧
    ∀ kept removed rest, EncodingParts kept removed → text.toList = kept ++ (removed ++ rest) →
      (withoutEncoding text).toList = kept ++ rest ∧
      (breaks removed = 0 ↔ ∀ c ∈ removed, ¬ (c = '\r' ∨ c = '\n')) ∧
      ∀ offset,
        let line := (Position.ofOffset text (byteSize (kept ++ removed) + offset)).line
        let place := Position.ofOffset (withoutEncoding text) (byteSize kept + offset)
        line = place.line + breaks removed ∧
          ∀ e, Document.parse (withoutEncoding text) = .error e →
            e.offset = byteSize kept + offset →
              ∃ d, Reported (withoutEncoding text) d ∧ d.phase = .parsing ∧
                d.position = some place := by
  refine ⟨Xml.withoutEncoding_ne_iff, fun kept removed rest hparts htext =>
    ⟨Xml.toList_withoutEncoding hparts htext, Text.breaks_eq_zero_iff, fun offset => ?_⟩⟩
  refine ⟨line_withoutEncoding hparts htext offset, fun e he hoffset => ?_⟩
  rw [← hoffset]
  exact exists_reported he

/-- The parts around an encoding in the second line, behind a version in single quotes. -/
theorem encodingParts_line : EncodingParts "<?xml version='1.0'".toList
    "\r\n\tencoding = \"UTF-8\"".toList where
  version := ⟨⟨[' '], [], [], '\'', nofun, List.all_eq_true.mp rfl, .inl rfl⟩,
    "1.0".toList, rfl, rfl⟩
  encoding := ⟨⟨['\r', '\n', '\t'], [' '], [' '], '"', nofun, List.all_eq_true.mp rfl, .inr rfl⟩,
    "UTF-8".toList, rfl, rfl⟩

/-- A carriage return with line feed is one break. The element is not closed, which is reported of
the second line and shows in the third one. -/
theorem lines_behind_encoding_crlf :
    let text := "<?xml version='1.0'\r\n\tencoding = \"UTF-8\"?>\r<a>"
    withoutEncoding text = "<?xml version='1.0'?>\r<a>" ∧
      (∃ d, Reported (withoutEncoding text) d ∧ d.position.map (·.line) = some 2) ∧
        (Position.ofOffset text text.utf8ByteSize).line = 3 := by
  intro text
  obtain ⟨hstripped, -, hlines⟩ := (lines_behind_encoding text).2 _ _ "?>\r<a>".toList
    encodingParts_line (by decide)
  obtain ⟨-, hreport⟩ := hlines 6
  have hoffset : (match Document.parse (withoutEncoding text) with
    | .error e => e.offset
    | .ok _ => 0) = 25 := by decide +kernel
  refine ⟨String.toList_inj.mp hstripped, ?_, by decide +kernel⟩
  split at hoffset
  next e he =>
    obtain ⟨d, hd, -, hplace⟩ := hreport e he hoffset
    exact ⟨d, hd, by rw [hplace]; decide +kernel⟩
  · cases hoffset

/-- Lines do not keep their numbers behind an encoding in a line of its own. -/
theorem lines_renumbered : ¬ ∀ (text : String) (kept removed rest : List Char),
    EncodingParts kept removed → text.toList = kept ++ (removed ++ rest) →
      ∀ offset, offset < byteSize rest →
        (Position.ofOffset (withoutEncoding text) (byteSize kept + offset)).line =
          (Position.ofOffset text (byteSize (kept ++ removed) + offset)).line := by
  intro hclaim
  have hline := hclaim "<?xml version='1.0'\r\n\tencoding = \"UTF-8\"?>\r<a>" _ _ "?>\r<a>".toList
    encodingParts_line (by decide) 0 (by decide)
  exact absurd hline (by decide +kernel)

end CommandLine

end XPathBench
