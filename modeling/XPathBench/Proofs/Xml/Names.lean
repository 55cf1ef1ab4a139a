import Mathlib.Data.List.TakeWhile
import XPathBench.Xml.Name

/-!
# Names at the start of a text

A name is read back from any text that goes on with something else than a name character, and what
is read is a name.

* `IsNcName`, `PrefixedName.Valid`: what a reader takes for a name
* `leadingQName?_text`, `valid_of_leadingQName?`: the two directions
-/

namespace XPathBench.Xml

variable {start further : Char → Bool} {w rest t : List Char} {n : PrefixedName}

/-- The text does not begin with a character of the kind. -/
def NotAhead (good : Char → Bool) (text : List Char) : Prop := ∀ c ∈ text.head?, good c = false

theorem notAhead_nil {good : Char → Bool} : NotAhead good [] := by simp [NotAhead]

theorem notAhead_cons {good : Char → Bool} {c : Char} :
    NotAhead good (c :: rest) ↔ good c = false := by simp [NotAhead]

theorem takeWhile_append_of_notAhead {good : Char → Bool} (h : ∀ c ∈ w, good c = true)
    (hrest : NotAhead good rest) : (w ++ rest).takeWhile good = w := by
  rw [List.takeWhile_append_of_pos h]
  cases rest with
  | nil => simp
  | cons c rest => simp [notAhead_cons.mp hrest]

theorem dropWhile_of_notAhead {good : Char → Bool} (h : NotAhead good t) :
    t.dropWhile good = t := by
  cases t with
  | nil => rfl
  | cons c t => rw [List.dropWhile_cons_of_neg (by simp [notAhead_cons.mp h])]

theorem dropWhile_append_of_notAhead {good : Char → Bool} (h : ∀ c ∈ w, good c = true)
    (hrest : NotAhead good rest) : (w ++ rest).dropWhile good = rest := by
  rw [List.dropWhile_append_of_pos h, dropWhile_of_notAhead hrest]

theorem notAhead_dropWhile {good : Char → Bool} : NotAhead good (t.dropWhile good) := by
  intro c hc
  have := List.head?_dropWhile_not good t
  rw [Option.mem_def.mp hc] at this
  simpa using this

/-! ## Runs -/

theorem leadingRun?_append (h : leadingRun? start further w = some w)
    (hrest : NotAhead further rest) : leadingRun? start further (w ++ rest) = some w := by
  cases w with
  | nil => cases h
  | cons c w =>
    simp only [leadingRun?, Option.ite_none_right_eq_some, Option.some.injEq, List.cons.injEq,
      true_and, List.takeWhile_eq_self_iff] at h
    simp only [List.cons_append, leadingRun?, h.1, if_true,
      takeWhile_append_of_notAhead h.2 hrest]

theorem leadingRun?_eq_some (h : leadingRun? start further t = some w) :
    leadingRun? start further w = some w ∧ ∃ u, t = w ++ u ∧ NotAhead further u := by
  cases t with
  | nil => cases h
  | cons c t =>
    simp only [leadingRun?, Option.ite_none_right_eq_some, Option.some.injEq] at h
    obtain ⟨hc, rfl⟩ := h
    refine ⟨by simp [leadingRun?, hc, List.takeWhile_idem], t.dropWhile further, ?_,
      notAhead_dropWhile⟩
    rw [List.cons_append, List.takeWhile_append_dropWhile]

theorem leadingRun?_head {c : Char} (h : leadingRun? start further (c :: w) = some (c :: w)) :
    start c = true := by
  simp only [leadingRun?, Option.ite_none_right_eq_some] at h
  exact h.1

theorem leadingRun?_ne_nil (h : leadingRun? start further t = some w) : w ≠ [] := by
  cases t with
  | nil => cases h
  | cons c t =>
    simp only [leadingRun?, Option.ite_none_right_eq_some, Option.some.injEq] at h
    simp [← h.2]

/-! ## Names -/

/-- A name without colon. -/
def IsNcName (s : String) : Prop := leadingNcName? s.toList = some s.toList

/-- A name in which colons may stand everywhere. -/
def IsName (s : String) : Prop := leadingName? s.toList = some s.toList

instance (s : String) : Decidable (IsNcName s) := inferInstanceAs (Decidable (_ = _))

instance (s : String) : Decidable (IsName s) := inferInstanceAs (Decidable (_ = _))

/-- Both parts of a prefixed name are names without colon. -/
structure PrefixedName.Valid (n : PrefixedName) : Prop where
  ofPrefix : ∀ p ∈ n.prefixName, IsNcName p
  ofLocal : IsNcName n.localName

/-- The text does not go on with a name. -/
def EndsName (text : List Char) : Prop := NotAhead (fun c => isNameChar c || c == ':') text

theorem EndsName.notNameChar (h : EndsName rest) : NotAhead isNameChar rest := fun c hc => by
  have := h c hc
  simp only [Bool.or_eq_false_iff] at this
  exact this.1

theorem EndsName.head_ne_colon (h : EndsName rest) {u : List Char} : rest ≠ ':' :: u := by
  rintro rfl
  exact absurd (notAhead_cons.mp h) (by decide)

theorem PrefixedName.width_eq (n : PrefixedName) : n.width = n.text.toList.length := by
  cases n with
  | mk p l => cases p <;> simp only [width, text, String.toList_append, List.length_append,
      String.length_toList]; rfl

theorem leadingQName?_text (hn : n.Valid) (hrest : EndsName rest) :
    leadingQName? (n.text.toList ++ rest) = some n := by
  obtain ⟨p, l⟩ := n
  have hlocal : leadingNcName? (l.toList ++ rest) = some l.toList :=
    leadingRun?_append hn.ofLocal hrest.notNameChar
  cases p with
  | none =>
    simp only [PrefixedName.text, leadingQName?, hlocal, Option.bind_eq_bind, Option.bind_some,
      List.drop_left, String.ofList_toList]
    split
    · exact absurd rfl hrest.head_ne_colon
    · rfl
  | some p =>
    have hp : leadingNcName? (p.toList ++ ':' :: (l.toList ++ rest)) = some p.toList :=
      leadingRun?_append (hn.ofPrefix p rfl) (notAhead_cons.mpr (by decide))
    have htext : (PrefixedName.text ⟨some p, l⟩).toList ++ rest =
        p.toList ++ ':' :: (l.toList ++ rest) := by simp [PrefixedName.text]
    rw [htext]
    simp only [leadingQName?, hp, Option.bind_eq_bind, Option.bind_some, List.drop_left, hlocal,
      String.ofList_toList]
    rfl

theorem isNcName_ofList (h : leadingNcName? t = some w) : IsNcName (String.ofList w) := by
  rw [IsNcName, String.toList_ofList]
  exact (leadingRun?_eq_some h).1

theorem leadingQName?_eq_some (h : leadingQName? t = some n) :
    n.Valid ∧ ∃ u, t = n.text.toList ++ u := by
  simp only [leadingQName?, Option.bind_eq_bind, Option.bind_eq_some_iff] at h
  obtain ⟨w, hw, h⟩ := h
  obtain ⟨_, u, rfl, _⟩ := leadingRun?_eq_some hw
  have alone : PrefixedName.Valid ⟨none, String.ofList w⟩ := ⟨by simp, isNcName_ofList hw⟩
  rw [List.drop_left] at h
  split at h
  · split at h
    · next l hl =>
      cases h
      obtain ⟨_, u, rfl, _⟩ := leadingRun?_eq_some hl
      exact ⟨⟨by simpa using isNcName_ofList hw, isNcName_ofList hl⟩, u,
        by simp [PrefixedName.text]⟩
    · cases h
      exact ⟨alone, _, by simp [PrefixedName.text]; rfl⟩
  · cases h
    exact ⟨alone, u, by simp [PrefixedName.text]⟩

/-! ## Characters that are in no name -/

theorem IsNcName.exists_cons {s : String} (h : IsNcName s) :
    ∃ c rest, s.toList = c :: rest ∧ isNameStart c = true := by
  cases hs : s.toList with
  | nil => exact absurd hs (leadingRun?_ne_nil h)
  | cons c rest => exact ⟨c, rest, rfl, leadingRun?_head (by rwa [← hs])⟩

theorem PrefixedName.Valid.exists_cons (hn : n.Valid) :
    ∃ c rest, n.text.toList = c :: rest ∧ isNameStart c = true := by
  obtain ⟨p, l⟩ := n
  cases p with
  | none => exact hn.ofLocal.exists_cons
  | some p =>
    obtain ⟨c, rest, hp, hc⟩ := (hn.ofPrefix p rfl).exists_cons
    exact ⟨c, rest ++ ':' :: l.toList, by simp [PrefixedName.text, hp], hc⟩

end XPathBench.Xml
