import Mathlib.Logic.ExistsUnique
import XPathBench.Proofs.Text.Literals

/-!
# The signs of a literal

What stands between the quotes of a literal is made of signs, each of which stands for one
character. A text that is not made of signs begins with signs and goes on with a flaw, the first one
in it.

* `Sign`: a character that stands for itself, or one of four escapes
* `Flaw`: what is no sign, with all that stands behind it
* `eq_escape_iff`: a literal on one line is what its text is written as
* `unescape_accepts_signs`: which texts are literals, and the fault found in the others
-/

namespace XPathBench.Literal

/-- A sign inside a literal. -/
inductive Sign where
  /-- A character that stands for itself. -/
  | plain (c : Char) (not_slash : c ≠ '\\') (not_quote : c ≠ '"')
  | slash
  | carriageReturn
  | lineFeed
  | quote

namespace Sign

/-- The sign as it stands in a literal. -/
def written : Sign → List Char
  | plain c _ _ => [c]
  | slash => ['\\', '\\']
  | carriageReturn => ['\\', 'r']
  | lineFeed => ['\\', 'n']
  | quote => ['\\', '"']

/-- The character that the sign stands for. -/
def meaning : Sign → Char
  | plain c _ _ => c
  | slash => '\\'
  | carriageReturn => '\r'
  | lineFeed => '\n'
  | quote => '"'

/-- Signs as they stand one behind the other. -/
def writtenAll (signs : List Sign) : List Char := signs.flatMap written

end Sign

/-- What stands where a sign should stand, with all that follows. -/
inductive Flaw where
  /-- A backslash before a character that is escaped nowhere. -/
  | unknownEscape (c : Char) (rest : List Char) (unknown : c ∉ ['\\', 'r', 'n', '"'])
  /-- A backslash at the end. -/
  | truncated
  /-- A quote by itself. -/
  | strayQuote (rest : List Char)

namespace Flaw

/-- The flaw and what follows it, as they stand in a literal. -/
def written : Flaw → List Char
  | unknownEscape c rest _ => '\\' :: c :: rest
  | truncated => ['\\']
  | strayQuote rest => '"' :: rest

/-- The fault that the flaw is. -/
def fault : Flaw → Fault
  | unknownEscape c _ _ => .unknownEscape c
  | truncated => .truncated
  | strayQuote _ => .strayQuote

/-- A flaw as it stands in a literal, if there is one. -/
def writtenIf : Option Flaw → List Char
  | none => []
  | some flaw => flaw.written

@[simp] theorem writtenIf_none : writtenIf none = [] := rfl

@[simp] theorem writtenIf_some (flaw : Flaw) : writtenIf (some flaw) = flaw.written := rfl

end Flaw

open Sign (writtenAll)

variable {c l : Char} {cs rest inner : List Char} {signs signs' : List Sign} {flaw flaw' : Flaw}
  {literal text : String}

/-! ## Reading signs -/

theorem unletter?_eq_none_iff : unletter? c = none ↔ c ∉ ['\\', 'r', 'n', '"'] := by
  unfold unletter?
  split <;> simp_all

@[simp] theorem writtenAll_nil : writtenAll [] = [] := rfl

@[simp] theorem writtenAll_cons (s : Sign) (signs : List Sign) :
    writtenAll (s :: signs) = s.written ++ writtenAll signs := rfl

/-- A sign is read as the character that it stands for, whatever follows. -/
theorem readBody_written (s : Sign) (rest : List Char) :
    readBody (s.written ++ rest) = (readBody rest).map (s.meaning :: ·) := by
  cases s with
  | plain c hslash hquote => exact readBody_cons hslash hquote
  | slash | carriageReturn | lineFeed | quote => rfl

theorem readBody_writtenAll (signs : List Sign) (rest : List Char) :
    readBody (writtenAll signs ++ rest) = (readBody rest).map (signs.map Sign.meaning ++ ·) := by
  induction signs with
  | nil => cases h : readBody rest <;> simp [h, Except.map]
  | cons s signs ih =>
    rw [writtenAll_cons, List.append_assoc, readBody_written, ih]
    cases readBody rest <;> rfl

theorem readBody_flaw (flaw : Flaw) : readBody flaw.written = .error flaw.fault := by
  cases flaw with
  | unknownEscape c rest unknown =>
    rw [Flaw.written, readBody, unletter?_eq_none_iff.mpr unknown]
    rfl
  | truncated | strayQuote => rfl

/-- The sign that an escape is. -/
theorem exists_sign_of_unletter? (h : unletter? l = some c) :
    ∃ s : Sign, s.written = ['\\', l] := by
  unfold unletter? at h
  split at h
  · exact ⟨.slash, rfl⟩
  · exact ⟨.carriageReturn, rfl⟩
  · exact ⟨.lineFeed, rfl⟩
  · exact ⟨.quote, rfl⟩
  · cases h

/-- Every text is made of signs, behind which a flaw may stand. -/
theorem exists_signs (cs : List Char) :
    ∃ signs flaw?, cs = writtenAll signs ++ Flaw.writtenIf flaw? := by
  -- a sign in front of the text is one more sign
  have hfront (s : Sign) {rest : List Char}
      (h : ∃ signs flaw?, rest = writtenAll signs ++ Flaw.writtenIf flaw?) :
      ∃ signs flaw?, s.written ++ rest = writtenAll signs ++ Flaw.writtenIf flaw? := by
    obtain ⟨signs, flaw?, rfl⟩ := h
    exact ⟨s :: signs, flaw?, (List.append_assoc ..).symm⟩
  fun_induction readBody cs with
  | case1 => exact ⟨[], none, rfl⟩
  | case2 => exact ⟨[], some .truncated, rfl⟩
  | case3 l rest c hletter ih =>
    obtain ⟨s, hs⟩ := exists_sign_of_unletter? hletter
    have hrest := hfront s ih
    rwa [hs] at hrest
  | case4 l rest hletter =>
    exact ⟨[], some (.unknownEscape l rest (unletter?_eq_none_iff.mp hletter)), rfl⟩
  | case5 rest => exact ⟨[], some (.strayQuote rest), rfl⟩
  | case6 c rest hend hescape hquote ih =>
    have hslash : c ≠ '\\' := by
      rintro rfl
      cases rest with
      | nil => exact hend rfl rfl
      | cons l rest => exact hescape l rest rfl rfl
    exact hfront (.plain c hslash hquote) ih

/-! ## One way to take a text apart -/

/-- Different signs begin differently. -/
theorem written_append_inj {s s' : Sign} {rest' : List Char}
    (h : s.written ++ rest = s'.written ++ rest') : s = s' ∧ rest = rest' := by
  cases s <;> cases s' <;> grind [Sign.written]

/-- A flaw does not begin with a sign, and neither does the end. -/
theorem writtenIf_ne_written_append (flaw? : Option Flaw) (s : Sign) (rest : List Char) :
    Flaw.writtenIf flaw? ≠ s.written ++ rest := by
  rcases flaw? with _ | _ | _ | _ <;> cases s <;> grind [Sign.written, Flaw.written, Flaw.writtenIf]

theorem writtenIf_inj {flaw? flaw?' : Option Flaw}
    (h : Flaw.writtenIf flaw? = Flaw.writtenIf flaw?') : flaw? = flaw?' := by
  rcases flaw? with _ | _ | _ | _ <;> rcases flaw?' with _ | _ | _ | _ <;>
    simp_all [Flaw.written]

theorem writtenAll_append_inj {flaw? flaw?' : Option Flaw}
    (h : writtenAll signs ++ Flaw.writtenIf flaw? = writtenAll signs' ++ Flaw.writtenIf flaw?') :
    signs = signs' ∧ flaw? = flaw?' := by
  induction signs generalizing signs' with
  | nil =>
    cases signs' with
    | nil => exact ⟨rfl, writtenIf_inj h⟩
    | cons s' signs' =>
      rw [writtenAll_cons, List.append_assoc] at h
      exact absurd h (writtenIf_ne_written_append _ _ _)
  | cons s signs ih =>
    rw [writtenAll_cons, List.append_assoc] at h
    cases signs' with
    | nil => exact absurd h.symm (writtenIf_ne_written_append _ _ _)
    | cons s' signs' =>
      rw [writtenAll_cons, List.append_assoc] at h
      obtain ⟨rfl, hrest⟩ := written_append_inj h
      obtain ⟨rfl, rfl⟩ := ih hrest
      exact ⟨rfl, rfl⟩

/-! ## Quotes around -/

theorem unquote?_eq_some_iff : unquote? cs = some inner ↔ cs = '"' :: (inner ++ ['"']) := by
  refine ⟨fun h => ?_, ?_⟩
  · unfold unquote? at h
    split at h
    · next rest =>
      split at h
      · next hlast =>
        obtain ⟨inner', rfl⟩ := List.getLast?_eq_some_iff.mp hlast
        cases h
        rw [List.dropLast_concat]
      · cases h
    · cases h
  · rintro rfl
    exact unquote?_quoted inner

theorem unquote?_eq_none_iff :
    unquote? cs = none ↔ cs.head? ≠ some '"' ∨ cs.tail.getLast? ≠ some '"' := by
  unfold unquote?
  split
  · next rest => simp
  · next hhead =>
    refine iff_of_true rfl (.inl fun h => ?_)
    obtain ⟨rest, rfl⟩ := List.head?_eq_some_iff.mp h
    exact hhead rest rfl

theorem unescape_of_quoted (h : literal.toList = '"' :: (inner ++ ['"'])) :
    unescape literal = (readBody inner).map String.ofList := by
  rw [unescape, unquote?_eq_some_iff.mpr h]

/-- Between quotes there are other faults, but the quotes are there. -/
theorem unescape_eq_unquoted_iff : unescape literal = .error .unquoted ↔
    literal.toList.head? ≠ some '"' ∨ literal.toList.tail.getLast? ≠ some '"' := by
  rw [← unquote?_eq_none_iff, unescape]
  cases unquote? literal.toList with
  | none => exact iff_of_true rfl rfl
  | some inner =>
    refine iff_of_false (fun h => ?_) (Option.some_ne_none inner)
    obtain ⟨signs, _ | flaw, rfl⟩ := exists_signs inner
    · simp only [readBody_writtenAll] at h
      cases h
    · simp only [readBody_writtenAll, Flaw.writtenIf_some, readBody_flaw] at h
      cases flaw <;> cases h

/-! ## Which texts are literals -/

/-- Escaping a character gives the sign that it was read from, unless that is a plain break. -/
theorem body_meaning (s : Sign) (rest : List Char)
    (h : ∀ c ∈ s.written, ¬ (c = '\r' ∨ c = '\n')) :
    body (s.meaning :: rest) = s.written ++ body rest := by
  cases s with
  | plain c hslash hquote =>
    have hletter : letter? c = none :=
      letter?_eq_none_iff.mpr ⟨hslash, hquote, h c (List.mem_singleton_self c)⟩
    rw [Sign.meaning, body, hletter]
    rfl
  | slash | carriageReturn | lineFeed | quote => rfl

theorem body_map_meaning (h : ∀ c ∈ writtenAll signs, ¬ (c = '\r' ∨ c = '\n')) :
    body (signs.map Sign.meaning) = writtenAll signs := by
  induction signs with
  | nil => rfl
  | cons s signs ih =>
    rw [writtenAll_cons, List.forall_mem_append] at h
    rw [List.map_cons, body_meaning s _ h.1, ih h.2, writtenAll_cons]

theorem readBody_eq_ok_iff : readBody cs = .ok rest ↔
    ∃ signs, cs = writtenAll signs ∧ rest = signs.map Sign.meaning := by
  constructor
  · intro h
    obtain ⟨signs, _ | flaw, rfl⟩ := exists_signs cs
    · rw [readBody_writtenAll] at h
      cases h
      exact ⟨signs, List.append_nil _, List.append_nil _⟩
    · rw [readBody_writtenAll, Flaw.writtenIf_some, readBody_flaw] at h
      cases h
  · rintro ⟨signs, rfl, rfl⟩
    have h := readBody_writtenAll signs []
    rw [List.append_nil] at h
    rw [h, readBody, Except.map, List.append_nil]

theorem readBody_eq_error_iff {fault : Fault} : readBody cs = .error fault ↔
    ∃ signs, ∃ flaw : Flaw, cs = writtenAll signs ++ flaw.written ∧ fault = flaw.fault := by
  constructor
  · intro h
    obtain ⟨signs, _ | flaw, rfl⟩ := exists_signs cs
    · rw [readBody_writtenAll] at h
      cases h
    · rw [readBody_writtenAll, Flaw.writtenIf_some, readBody_flaw] at h
      cases h
      exact ⟨signs, flaw, rfl, rfl⟩
  · rintro ⟨signs, flaw, rfl, rfl⟩
    rw [readBody_writtenAll, readBody_flaw]
    rfl

theorem unescape_eq_ok_iff : unescape literal = .ok text ↔
    ∃ signs, literal.toList = '"' :: (writtenAll signs ++ ['"']) ∧
      text = String.ofList (signs.map Sign.meaning) := by
  constructor
  · intro h
    rw [unescape] at h
    split at h
    · cases h
    · next inner hinner =>
      cases hread : readBody inner with
      | error fault => rw [hread] at h; cases h
      | ok value =>
        rw [hread] at h
        obtain ⟨signs, rfl, rfl⟩ := readBody_eq_ok_iff.mp hread
        cases h
        exact ⟨signs, unquote?_eq_some_iff.mp hinner, rfl⟩
  · rintro ⟨signs, hliteral, rfl⟩
    rw [unescape_of_quoted hliteral, readBody_eq_ok_iff.mpr ⟨signs, rfl, rfl⟩]
    rfl

/-- What is read as a text and stands on one line is just what that text is written as. -/
theorem eq_escape_iff (literal text : String) : literal = escape text ↔
    unescape literal = .ok text ∧ ∀ c ∈ literal.toList, ¬ (c = '\r' ∨ c = '\n') := by
  constructor
  · rintro rfl
    exact ⟨unescape_escape text, fun _ => not_break_of_mem_escape⟩
  · rintro ⟨hread, hplain⟩
    obtain ⟨signs, hliteral, rfl⟩ := unescape_eq_ok_iff.mp hread
    have hsigns : ∀ c ∈ writtenAll signs, ¬ (c = '\r' ∨ c = '\n') := by
      intro c hc
      apply hplain
      rw [hliteral]
      exact List.mem_cons_of_mem _ (List.mem_append_left _ hc)
    rw [← String.toList_inj, toList_escape, String.toList_ofList, body_map_meaning hsigns]
    exact hliteral

/-- A text in quotes is a literal if signs stand between the quotes, and stands for what the signs
mean. Otherwise signs and a flaw behind them stand there, in one way, and the flaw is the fault. -/
theorem unescape_accepts_signs (literal : String) :
    (unescape literal = .error .unquoted ↔
      literal.toList.head? ≠ some '"' ∨ literal.toList.tail.getLast? ≠ some '"') ∧
    (unescape literal = .error .unquoted ∨
      ∃ inner, literal.toList = '"' :: (inner ++ ['"']) ∧
        (∀ text, unescape literal = .ok text ↔
          ∃ signs, inner = writtenAll signs ∧ text = String.ofList (signs.map Sign.meaning)) ∧
        (∀ fault, unescape literal = .error fault ↔
          ∃ signs, ∃ flaw : Flaw, inner = writtenAll signs ++ flaw.written ∧ fault = flaw.fault) ∧
        ((∃ signs, inner = writtenAll signs) ∨
          ∃! split : List Sign × Flaw, inner = writtenAll split.1 ++ split.2.written)) := by
  refine ⟨unescape_eq_unquoted_iff, ?_⟩
  cases hinner : unquote? literal.toList with
  | none => exact .inl (unescape_eq_unquoted_iff.mpr (unquote?_eq_none_iff.mp hinner))
  | some inner =>
    have hliteral := unquote?_eq_some_iff.mp hinner
    refine .inr ⟨inner, hliteral, fun text => ?_, fun fault => ?_, ?_⟩
    · rw [unescape_eq_ok_iff, hliteral]
      simp only [List.cons_inj_right, List.append_cancel_right_eq]
    · rw [unescape_of_quoted hliteral, ← readBody_eq_error_iff]
      cases readBody inner <;> simp [Except.map]
    · obtain ⟨signs, _ | flaw, rfl⟩ := exists_signs inner
      · exact .inl ⟨signs, List.append_nil _⟩
      · refine .inr ⟨(signs, flaw), rfl, ?_⟩
        rintro ⟨signs', flaw'⟩ heq
        have hsame : writtenAll signs ++ Flaw.writtenIf (some flaw) =
            writtenAll signs' ++ Flaw.writtenIf (some flaw') := heq
        obtain ⟨rfl, hflaw⟩ := writtenAll_append_inj hsame
        rw [Option.some.inj hflaw]

/-- A backslash in front of the last quote makes it part of the text, so the literal has no end. -/
example : unescape "\"a\\\"" = .error .truncated := rfl

end XPathBench.Literal
