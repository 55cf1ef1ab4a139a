import XPathBench.Text.Blank

/-!
# Texts without the white space around them

* `exists_gap`: the white space in front of a text
* `EndTrimmed`: what is left of a text without the white space at its end
-/

namespace XPathBench.Text

variable {c : Char} {cs rest : List Char}

/-! ## White space in front -/

theorem exists_gap (cs : List Char) :
    ∃ gap, cs = gap ++ trimStartChars cs ∧ ∀ c ∈ gap, isBlank c = true := by
  refine ⟨cs.takeWhile isBlank, List.takeWhile_append_dropWhile.symm, fun c hc => ?_⟩
  exact List.all_eq_true.mp List.all_takeWhile c hc

theorem not_isBlank_of_trimStartChars (h : trimStartChars cs = c :: rest) : isBlank c = false := by
  have hhead := List.head?_dropWhile_not isBlank cs
  rw [← trimStartChars, h] at hhead
  exact hhead

/-! ## White space at the end -/

/-- What is left of a text without the white space at its end. -/
structure EndTrimmed (text kept : String) : Prop where
  cut : ∃ blanks, text = kept ++ blanks ∧ ∀ c ∈ blanks.toList, isBlank c = true
  last : ∀ c ∈ kept.toList.getLast?, isBlank c = false

theorem endTrimmed_trimEnd (text : String) : EndTrimmed text (trimEnd text) where
  cut := by
    obtain ⟨gap, htext, hgap⟩ := exists_gap text.toList.reverse
    refine ⟨String.ofList gap.reverse, ?_, fun c hc => ?_⟩
    · rw [trimEnd, trimEndChars, ← trimStartChars, ← String.ofList_append, ← List.reverse_append,
        ← htext, List.reverse_reverse, String.ofList_toList]
    · rw [String.toList_ofList, List.mem_reverse] at hc
      exact hgap c hc
  last := by
    intro c hc
    rw [trimEnd, String.toList_ofList, trimEndChars, List.getLast?_reverse] at hc
    obtain ⟨rest, hrest⟩ := List.head?_eq_some_iff.mp (Option.mem_def.mp hc)
    exact not_isBlank_of_trimStartChars hrest

namespace EndTrimmed

variable {text kept : String}

theorem trimEnd_eq (h : EndTrimmed text kept) : trimEnd text = kept := by
  obtain ⟨⟨blanks, rfl, hblanks⟩, hlast⟩ := h
  have hkept : kept.toList.reverse.dropWhile isBlank = kept.toList.reverse := by
    rw [← List.head?_reverse] at hlast
    cases hback : kept.toList.reverse with
    | nil => rfl
    | cons c front =>
      rw [hback] at hlast
      exact List.dropWhile_cons_of_neg (ne_true_of_eq_false (hlast c rfl))
  rw [trimEnd, trimEndChars, String.toList_append, List.reverse_append,
    List.dropWhile_append_of_pos fun c hc => hblanks c (List.mem_reverse.mp hc), hkept,
    List.reverse_reverse, String.ofList_toList]

/-- White space goes from behind a text whatever stands before it, if something of it stays. -/
theorem append_left (h : EndTrimmed text kept) (hkept : kept ≠ "") (front : String) :
    EndTrimmed (front ++ text) (front ++ kept) := by
  obtain ⟨⟨blanks, rfl, hblanks⟩, hlast⟩ := h
  refine ⟨⟨blanks, String.append_assoc.symm, hblanks⟩, fun c hc => hlast c ?_⟩
  have hne : kept.toList ≠ [] := fun hnil => hkept (String.toList_eq_nil_iff.mp hnil)
  rw [String.toList_append, List.getLast?_append, List.getLast?_eq_some_getLast hne] at hc
  rwa [List.getLast?_eq_some_getLast hne]

end EndTrimmed

end XPathBench.Text
