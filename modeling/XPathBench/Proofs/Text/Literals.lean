import XPathBench.Text.Literal

/-!
# Literals can be read back

What a text is written as stands on one line, and reading it gives the text. So no two texts are
written the same.

* `unescape_escape`: reading what was written
* `not_break_of_mem_escape`: literals have no breaks
-/

namespace XPathBench.Literal

variable {c l : Char} {cs rest : List Char} {text text' : String}

theorem unletter?_of_letter? (h : letter? c = some l) : unletter? l = some c := by
  unfold letter? at h
  split at h <;> cases h <;> rfl

/-- The characters that stand for themselves. -/
theorem letter?_eq_none_iff :
    letter? c = none ↔ c ≠ '\\' ∧ c ≠ '"' ∧ ¬ (c = '\r' ∨ c = '\n') := by
  unfold letter?
  split <;> simp_all

theorem not_break_of_letter? (h : letter? c = some l) : ¬ (l = '\r' ∨ l = '\n') := by
  unfold letter? at h
  split at h <;> cases h <;> decide

theorem readBody_cons (hslash : c ≠ '\\') (hquote : c ≠ '"') :
    readBody (c :: rest) = (readBody rest).map (c :: ·) := by
  rw [readBody, if_neg hquote]
  · rintro rfl
    exact absurd rfl hslash
  · rintro _ _ rfl
    exact absurd rfl hslash

theorem readBody_body (cs : List Char) : readBody (body cs) = .ok cs := by
  fun_induction body cs with
  | case1 => rfl
  | case2 c rest l hletter ih =>
    rw [readBody, unletter?_of_letter? hletter]
    simp only [ih, Except.map]
  | case3 c rest hletter ih =>
    obtain ⟨hslash, hquote, -⟩ := letter?_eq_none_iff.mp hletter
    rw [readBody_cons hslash hquote, ih, Except.map]

theorem not_break_of_mem_body (h : c ∈ body cs) : ¬ (c = '\r' ∨ c = '\n') := by
  fun_induction body cs with
  | case1 => cases h
  | case2 d rest l hletter ih =>
    rcases List.mem_cons.mp h with rfl | h
    · decide
    rcases List.mem_cons.mp h with rfl | h
    · exact not_break_of_letter? hletter
    · exact ih h
  | case3 d rest hletter ih =>
    rcases List.mem_cons.mp h with rfl | h
    · exact (letter?_eq_none_iff.mp hletter).2.2
    · exact ih h

theorem toList_escape (text : String) :
    (escape text).toList = '"' :: (body text.toList ++ ['"']) := String.toList_ofList

theorem unquote?_quoted (cs : List Char) : unquote? ('"' :: (cs ++ ['"'])) = some cs := by
  rw [unquote?, List.getLast?_concat, if_pos rfl, List.dropLast_concat]

theorem unescape_escape (text : String) : unescape (escape text) = .ok text := by
  rw [unescape, toList_escape, unquote?_quoted]
  simp only [readBody_body, Except.map, String.ofList_toList]

theorem not_break_of_mem_escape (h : c ∈ (escape text).toList) : ¬ (c = '\r' ∨ c = '\n') := by
  rw [toList_escape] at h
  rcases List.mem_cons.mp h with rfl | h
  · decide
  rcases List.mem_append.mp h with h | h
  · exact not_break_of_mem_body h
  · rw [List.mem_singleton.mp h]
    decide

theorem escape_inj (h : escape text = escape text') : text = text' := by
  have hread := congrArg unescape h
  rw [unescape_escape, unescape_escape] at hread
  exact Except.ok.inj hread

end XPathBench.Literal
