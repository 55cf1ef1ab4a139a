import XPathBench.Proofs.XPath.Lexemes

/-!
# Words

The lexer and the outline cut names out of a query with an alphabet of their own each. Where both
can go on behind a name, they have cut the same name.

* `Lexed`, `Outlined`: texts that can be cut to their end
* `wordWidth_eq`: the name that both cut
-/

namespace XPathBench.XPath

open Lexeme
open Xml (leadingNcName? leadingQName? PrefixedName NotAhead)

variable {b next : Bool} {c : Char} {cs text rest behind : List Char} {tokens : List Token}

/-! ## Characters -/

theorem isNameChar_of_isDigit (h : c.isDigit = true) :
    Outline.isNameChar c = true ∧ Xml.isNameChar c = true ∧ Xml.isNameStart c = false := by
  have hnat : 48 ≤ c.toNat ∧ c.toNat ≤ 57 := by
    simpa [Char.isDigit, UInt32.le_iff_toNat_le] using h
  refine ⟨?_, ?_, ?_⟩
  · simp [Outline.isNameChar, Text.isNumeral, h, show c.toNat < 0x80 by omega]
  · have hfurther : Text.inRanges Xml.nameFurtherRanges c = true :=
      List.any_eq_true.mpr ⟨(0x30, 0x39), by decide, by simpa using hnat⟩
    rw [Xml.isNameChar, hfurther, Bool.or_true]
  · rw [← Bool.not_eq_true]
    simp only [Xml.isNameStart, Text.inRanges, Xml.nameStartRanges, List.any_cons, List.any_nil,
      Bool.or_eq_true, Bool.and_eq_true, decide_eq_true_eq, Bool.or_false]
    omega

theorem not_isNameStart_of_isDigit (h : c.isDigit = true) : Outline.isNameStart c = false := by
  have hnat : 48 ≤ c.toNat ∧ c.toNat ≤ 57 := by
    simpa [Char.isDigit, UInt32.le_iff_toNat_le] using h
  have halpha : c.isAlpha = false := by
    have hupper : ¬ 'A'.val ≤ c.val := by
      rw [UInt32.le_iff_toNat_le]
      show ¬ 65 ≤ c.toNat
      omega
    have hlower : ¬ 'a'.val ≤ c.val := by
      rw [UInt32.le_iff_toNat_le]
      show ¬ 97 ≤ c.toNat
      omega
    refine Bool.or_eq_false_iff.mpr ⟨decide_eq_false fun h => hupper h.1, ?_⟩
    exact Bool.and_eq_false_iff.mpr (.inl (decide_eq_false hlower))
  have hunderscore : c ≠ '_' := by
    rintro rfl
    cases h
  simp [Outline.isNameStart, Text.isLetter, show c.toNat < 0x80 by omega, halpha, hunderscore]

/-- Only one character may stand in a name of XML and is white space nevertheless. -/
theorem eq_of_isBlank (h : Xml.isNameChar c = true) (hblank : Text.isBlank c = true) :
    c = '\u1680' := by
  simp only [Xml.isNameChar, Xml.isNameStart, Text.isBlank, Text.inRanges, Xml.nameStartRanges,
    Xml.nameFurtherRanges, Text.blankRanges, List.any_cons, List.any_nil, Bool.or_eq_true,
    Bool.and_eq_true, decide_eq_true_eq, Bool.or_false] at h hblank
  have hnat : c.toNat = '\u1680'.toNat := by
    show c.toNat = 0x1680
    omega
  exact Char.toNat_inj.mp hnat

theorem not_isNameChar_of_isXmlBlank (h : Text.isXmlBlank c = true) :
    Outline.isNameChar c = false ∧ c ≠ ':' :=
  Text.of_isXmlBlank (p := fun c => Outline.isNameChar c = false ∧ c ≠ ':') (by decide) h

/-! ## What starts a lexeme -/

/-- No colon starts a lexeme, and what the outline reads as a part of a name starts one only if the
lexer does so, too. -/
def StartsLexeme (c : Char) : Prop :=
  c ≠ ':' ∧ (Outline.isNameChar c = true → Xml.isNameChar c = true)

instance (c : Char) : Decidable (StartsLexeme c) := inferInstanceAs (Decidable (_ ∧ _))

theorem startsLexeme_of_isNameStart (h : Xml.isNameStart c = true) : StartsLexeme c := by
  refine ⟨?_, fun _ => by rw [Xml.isNameChar, h, Bool.true_or]⟩
  rintro rfl
  cases h

theorem startsLexeme_of_mem {α : Type} {table : List (String × α)} {entry : String × α}
    (hentry : entry ∈ table)
    (htable : ∀ e ∈ table, e.1.toList.head?.any (fun c => decide (StartsLexeme c)) = true) :
    ∃ c tail, entry.1.toList = c :: tail ∧ StartsLexeme c := by
  have hstart := htable entry hentry
  cases hlist : entry.1.toList with
  | nil => simp [hlist] at hstart
  | cons c tail =>
    rw [hlist] at hstart
    exact ⟨c, tail, rfl, of_decide_eq_true hstart⟩

theorem Cut.starts (h : Cut b text behind tokens next) :
    ∃ c tail, text = c :: tail ∧ StartsLexeme c := by
  cases h with
  | symbol hmem _ => exact startsLexeme_of_mem hmem (by decide)
  | literal hquote _ => rcases hquote with rfl | rfl <;> exact ⟨_, _, rfl, by decide⟩
  | bound _ => exact ⟨_, _, rfl, by decide⟩
  | number hc _ =>
    rcases hc with hc | ⟨rfl, _⟩
    · refine ⟨_, _, rfl, ?_, fun _ => (isNameChar_of_isDigit hc).2.1⟩
      rintro rfl
      cases hc
    · exact ⟨_, _, rfl, by decide⟩
  | point _ => exact ⟨_, _, rfl, by decide⟩
  | star _ => exact ⟨_, _, rfl, by decide⟩
  | operator _ hmem => exact startsLexeme_of_mem hmem (by decide)
  | axis hmem =>
    obtain ⟨c, tail, hname, hc⟩ := startsLexeme_of_mem hmem (by decide)
    exact ⟨c, tail ++ [':', ':'], congrArg (· ++ [':', ':']) hname, hc⟩
  | nodeTest hmem => exact startsLexeme_of_mem hmem (by decide)
  | instruction _ _ => exact ⟨_, _, rfl, by decide⟩
  | function _ hname | nameTest _ hname =>
    obtain ⟨c, tail, htext, hc⟩ := (Xml.leadingQName?_eq_some hname).1.exists_cons
    exact ⟨c, tail, htext, startsLexeme_of_isNameStart hc⟩
  | @namespaceTest first _ _ hfirst =>
    obtain ⟨hrun, _⟩ := Xml.leadingRun?_eq_some hfirst
    cases first with
    | nil => cases hrun
    | cons c first => exact ⟨_, _, rfl, startsLexeme_of_isNameStart (Xml.leadingRun?_head hrun)⟩

/-! ## What starts a piece -/

theorem shapeAt?_cases {shape : Shape} {width : Nat}
    (h : Outline.shapeAt? b c rest = some (shape, width)) :
    Outline.isNameStart c = true ∨ c.isDigit = true ∨
      c ∈ "'\".$([)],@:/|+-=!<>*".toList := by
  unfold Outline.shapeAt? at h
  split at h
  any_goals
    refine .inr (.inr ?_)
    decide
  simp only at h
  split at h
  · next hc => exact .inr (.inl hc)
  · split at h
    · next hc => exact .inl hc
    · cases h

/-- What the lexer reads as the start of a name starts a piece only if it starts a name there. -/
theorem isNameStart_of_shapeAt? {shape : Shape} {width : Nat}
    (h : Outline.shapeAt? b c rest = some (shape, width)) (hc : Xml.isNameStart c = true) :
    Outline.isNameStart c = true := by
  rcases shapeAt?_cases h with h | h | h
  · exact h
  · rw [(isNameChar_of_isDigit h).2.2] at hc
    cases hc
  · have hmarks : ("'\".$([)],@:/|+-=!<>*".toList.any Xml.isNameStart) = false := by decide
    rw [List.any_eq_false] at hmarks
    exact absurd hc (hmarks c h)

theorem isNameChar_of_shapeAt? {shape : Shape} {width : Nat}
    (h : Outline.shapeAt? b c rest = some (shape, width)) (hc : Xml.isNameChar c = true) :
    Outline.isNameChar c = true := by
  rcases shapeAt?_cases h with h | h | h
  · rw [Outline.isNameStart, Bool.or_eq_true] at h
    rcases h with h | h <;> simp [Outline.isNameChar, h]
  · exact (isNameChar_of_isDigit h).1
  · have hmarks : ("'\".$([)],@:/|+-=!<>*".toList.all fun d =>
        !Xml.isNameChar d || Outline.isNameChar d) = true := by decide
    have hmark := List.all_eq_true.mp hmarks c h
    simpa [hc] using hmark

/-! ## Texts that can be cut to their end -/

/-- The lexer cuts the text to its end. -/
def Lexed (cs : List Char) : Prop := ∃ b, (TokenStream.ofTextFrom b 0 cs).error = none

/-- The outline cuts the text to its end. -/
def Outlined (cs : List Char) : Prop := ∃ b pieces, Outline.piecesFrom? b 0 cs = some pieces

theorem Lexed.head (h : Lexed (c :: rest)) : StartsLexeme c := by
  obtain ⟨b, h⟩ := h
  rw [TokenStream.ofTextFrom] at h
  split at h
  · next hblank =>
    obtain ⟨hc, hcolon⟩ := not_isNameChar_of_isXmlBlank hblank
    exact ⟨hcolon, fun hname => by rw [hc] at hname; cases hname⟩
  · split at h
    · cases h
    · next lexeme hlexeme =>
      obtain ⟨text, behind, hcs, _, hcut⟩ := cuts_of_lexemeAt hlexeme
      obtain ⟨d, tail, rfl, hd⟩ := hcut.starts
      cases hcs
      exact hd

theorem Outlined.head (h : Outlined (c :: rest)) :
    (Xml.isNameChar c = true → Outline.isNameChar c = true ∨ c = '\u1680') ∧
      (c = ':' → rest.head? = some ':') := by
  obtain ⟨b, pieces, h⟩ := h
  rw [Outline.piecesFrom?] at h
  split at h
  · next hblank =>
    refine ⟨fun hc => .inr (eq_of_isBlank hc hblank), ?_⟩
    rintro rfl
    cases hblank
  · split at h
    · cases h
    · next shape width hshape =>
      refine ⟨fun hc => .inl (isNameChar_of_shapeAt? hshape hc), ?_⟩
      rintro rfl
      by_contra hcolon
      simp [Outline.shapeAt?, hcolon] at hshape

/-! ## Names -/

/-- The length of the name that a text starts with: a run of name characters, then perhaps a colon
with a star or with another run that starts like a name. -/
def wordWidth (start further : Char → Bool) (cs : List Char) : Nat :=
  let first := (cs.takeWhile further).length
  match cs.drop first with
  | ':' :: '*' :: _ => first + 2
  | ':' :: c :: rest =>
    if start c then first + 1 + ((c :: rest).takeWhile further).length else first
  | _ => first

theorem nameWidth_eq : Outline.nameWidth = wordWidth Outline.isNameStart Outline.isNameChar := rfl

/-- Two alphabets have the same run if neither goes on where the other one stops. -/
theorem takeWhile_congr {p q : Char → Bool} {x : Char}
    (hq : ∀ d rest, cs = cs.takeWhile p ++ d :: rest → q d = false)
    (hp : ∀ d rest, cs = cs.takeWhile q ++ d :: rest → p d = true → d = x)
    (hx : x ∉ cs.takeWhile p) : cs.takeWhile p = cs.takeWhile q := by
  induction cs with
  | nil => rfl
  | cons c cs ih =>
    by_cases hpc : p c = true
    · rw [List.takeWhile_cons_of_pos hpc] at hq hx ⊢
      by_cases hqc : q c = true
      · rw [List.takeWhile_cons_of_pos hqc] at hp ⊢
        rw [ih (fun d rest h => hq d rest (by rw [List.cons_append, ← h]))
          (fun d rest h => hp d rest (by rw [List.cons_append, ← h]))
          fun hmem => hx (List.mem_cons_of_mem c hmem)]
      · rw [List.takeWhile_cons_of_neg hqc] at hp
        exact absurd (hp c cs rfl hpc ▸ List.mem_cons_self) hx
    · rw [List.takeWhile_cons_of_neg hpc] at hq ⊢
      have hqc : ¬ q c = true := by rw [hq c cs rfl]; exact Bool.false_ne_true
      rw [List.takeWhile_cons_of_neg hqc]

theorem not_of_takeWhile {p : Char → Bool} (h : cs = cs.takeWhile p ++ c :: rest) :
    p c = false := by
  have hdrop : cs.dropWhile p = c :: rest := by
    have happend : cs.takeWhile p ++ cs.dropWhile p = cs.takeWhile p ++ c :: rest := by
      rw [List.takeWhile_append_dropWhile]
      exact h
    exact List.append_cancel_left happend
  have hahead : NotAhead p (cs.dropWhile p) := Xml.notAhead_dropWhile
  rw [hdrop] at hahead
  exact Xml.notAhead_cons.mp hahead

/-- The runs of name characters are the same where both sides go on behind their run. -/
theorem run_eq (hlexed : ∀ d rest, cs = cs.takeWhile Xml.isNameChar ++ d :: rest → d ≠ ':' →
      Lexed (d :: rest))
    (houtlined : ∀ d rest, cs = cs.takeWhile Outline.isNameChar ++ d :: rest → d ≠ ':' →
      Outlined (d :: rest))
    (hx : '\u1680' ∉ cs.takeWhile Xml.isNameChar) :
    cs.takeWhile Xml.isNameChar = cs.takeWhile Outline.isNameChar := by
  refine takeWhile_congr (fun d rest hcs => ?_) (fun d rest hcs hd => ?_) hx
  · by_cases hcolon : d = ':'
    · subst hcolon
      decide
    · by_contra hname
      have hxml := (hlexed d rest hcs hcolon).head.2 (by simpa using hname)
      rw [not_of_takeWhile hcs] at hxml
      cases hxml
  · have hcolon : d ≠ ':' := by
      rintro rfl
      cases hd
    refine ((houtlined d rest hcs hcolon).head.1 hd).resolve_left fun hname => ?_
    rw [not_of_takeWhile hcs] at hname
    cases hname

variable {start further : Char → Bool}

theorem drop_of_takeWhile {p : Char → Bool} (h : cs = cs.takeWhile p ++ rest) :
    cs.drop (cs.takeWhile p).length = rest := by
  have hdrop := congrArg (List.drop (cs.takeWhile p).length) h
  rwa [List.drop_left' rfl] at hdrop

theorem wordWidth_of_run (hcs : cs = cs.takeWhile further ++ c :: rest) (hc : c ≠ ':') :
    cs.drop (wordWidth start further cs) = c :: rest := by
  have hdrop := drop_of_takeWhile hcs
  have hwidth : wordWidth start further cs = (cs.takeWhile further).length := by
    simp only [wordWidth, hdrop]
    split
    · next heq =>
      cases heq
      exact absurd rfl hc
    · next heq =>
      cases heq
      exact absurd rfl hc
    · rfl
  rw [hwidth, hdrop]

theorem take_length_takeWhile (p : Char → Bool) (cs : List Char) :
    cs.take (cs.takeWhile p).length = cs.takeWhile p :=
  (List.prefix_iff_eq_take.mp (List.takeWhile_prefix p)).symm

theorem length_takeWhile_le : (cs.takeWhile further).length ≤ wordWidth start further cs := by
  simp only [wordWidth]
  split
  · omega
  · split <;> omega
  · exact Nat.le_refl _

theorem takeWhile_subset_take : cs.takeWhile further ⊆ cs.take (wordWidth start further cs) := by
  rw [← take_length_takeWhile]
  exact List.take_subset_take_left cs length_takeWhile_le

theorem nameWidth_pos (h : Outline.isNameStart c = true) :
    0 < Outline.nameWidth (c :: rest) := by
  have hc : Outline.isNameChar c = true := by
    rw [Outline.isNameStart, Bool.or_eq_true] at h
    rcases h with h | h <;> simp [Outline.isNameChar, h]
  have hle : ((c :: rest).takeWhile Outline.isNameChar).length ≤ Outline.nameWidth (c :: rest) :=
    length_takeWhile_le
  rw [List.takeWhile_cons_of_pos hc] at hle
  exact Nat.lt_of_lt_of_le (Nat.succ_pos _) hle

/-- Where both go on behind a name, they have cut the same name. -/
theorem wordWidth_eq (hlexed : Lexed (cs.drop (wordWidth Xml.isNameStart Xml.isNameChar cs)))
    (houtlined : Outlined (cs.drop (Outline.nameWidth cs)))
    (hx : '\u1680' ∉ cs.take (wordWidth Xml.isNameStart Xml.isNameChar cs)) :
    Outline.nameWidth cs = wordWidth Xml.isNameStart Xml.isNameChar cs := by
  rw [nameWidth_eq] at houtlined ⊢
  have hrun := @run_eq cs (fun d rest hcs hd => wordWidth_of_run hcs hd ▸ hlexed)
    (fun d rest hcs hd => wordWidth_of_run hcs hd ▸ houtlined)
    fun hmem => hx (takeWhile_subset_take hmem)
  simp only [wordWidth, ← hrun] at hlexed houtlined hx ⊢
  generalize (cs.takeWhile Xml.isNameChar).length = first at *
  split
  · rfl
  · next c rest hstar hdrop =>
    rw [hdrop] at hlexed houtlined hx
    simp only at hlexed houtlined hx
    have hbehind (n : Nat) : cs.drop (first + 1 + n) = (c :: rest).drop n := by
      rw [Nat.add_assoc, ← List.drop_drop, hdrop, Nat.add_comm 1, List.drop_succ_cons]
    by_cases hxml : Xml.isNameStart c = true
    · by_cases houtline : Outline.isNameStart c = true
      · rw [if_pos hxml, hbehind] at hlexed
        rw [if_pos houtline, hbehind] at houtlined
        rw [if_pos hxml, List.take_add, ← Nat.add_zero (first + 1), hbehind] at hx
        have hsecond := @run_eq (c :: rest)
          (fun d rest hcs _ => drop_of_takeWhile hcs ▸ hlexed)
          (fun d rest hcs _ => drop_of_takeWhile hcs ▸ houtlined) fun hmem => hx ?_
        · rw [if_pos hxml, if_pos houtline, hsecond]
        · refine List.mem_append_right _ ?_
          rw [List.drop_zero, take_length_takeWhile]
          exact hmem
      · rw [if_neg houtline, hdrop] at houtlined
        cases houtlined.head.2 rfl
        cases hxml
    · rw [if_neg hxml, hdrop] at hlexed
      exact absurd rfl hlexed.head.1
  · rfl

theorem takeWhile_of_leadingNcName? {w : List Char} (h : leadingNcName? cs = some w) :
    cs.takeWhile Xml.isNameChar = w := by
  cases cs with
  | nil => cases h
  | cons c cs =>
    obtain ⟨hc, h⟩ := Option.ite_none_right_eq_some.mp h
    cases h
    rw [List.takeWhile_cons_of_pos]
    rw [Xml.isNameChar, hc, Bool.true_or]

/-- The lexer cuts a name as long as possible. A colon behind it cannot be cut. -/
theorem wordWidth_of_leadingQName? {name : PrefixedName} (h : leadingQName? cs = some name)
    (hcolon : ∀ rest, cs.drop name.width ≠ ':' :: rest) :
    wordWidth Xml.isNameStart Xml.isNameChar cs = name.width := by
  simp only [leadingQName?, Option.bind_eq_bind, Option.bind_eq_some_iff] at h
  obtain ⟨first, hfirst, h⟩ := h
  simp only [wordWidth, takeWhile_of_leadingNcName? hfirst]
  split at h
  · next rest hdrop =>
    split at h
    · next second hsecond =>
      cases h
      cases rest with
      | nil => cases hsecond
      | cons c rest =>
        have hrun := takeWhile_of_leadingNcName? hsecond
        obtain ⟨hc, _⟩ := Option.ite_none_right_eq_some.mp hsecond
        have hstar : c ≠ '*' := by
          rintro rfl
          cases hc
        rw [hdrop]
        split
        · next heq =>
          cases heq
          exact absurd rfl hstar
        · next heq =>
          cases heq
          rw [if_pos hc, hrun]
          simp [PrefixedName.width]
        · next hnone => exact absurd rfl (hnone c rest)
    · cases h
      exact absurd (by simpa [PrefixedName.width] using hdrop) (hcolon rest)
  · next hnone =>
    cases h
    split
    · next heq => exact absurd heq (hnone _)
    · next heq => exact absurd heq (hnone _)
    · simp [PrefixedName.width]

theorem shapeAt?_of_isDigit (h : c.isDigit = true) : Outline.shapeAt? b c rest =
    some (.number, (rest.takeWhile Outline.isNumberChar).length) := by
  unfold Outline.shapeAt?
  split
  any_goals cases h
  rw [if_pos h]

/-- The outline reads a word that starts like a name as one piece. -/
theorem shapeAt?_of_isNameStart (h : Outline.isNameStart c = true) :
    Outline.shapeAt? b c rest =
      some (Outline.wordShape b ((c :: rest).take (Outline.nameWidth (c :: rest))),
        Outline.nameWidth (c :: rest) - 1) := by
  unfold Outline.shapeAt?
  split
  any_goals cases h
  rw [if_neg, if_pos h]
  intro hdigit
  rw [not_isNameStart_of_isDigit hdigit] at h
  cases h

end XPathBench.XPath
