import Mathlib.Data.List.Forall2
import XPathBench.Proofs.Xml.Readers
import XPathBench.Xml.Assembly
import XPathBench.Xml.Grammar
import XPathBench.Xml.Markup

/-!
# Tags as they are written and read

Escaped text is read back as runs of plain characters and references; a written attribute is read
back with its name and its value, and a written tag with its name and its attributes.

* `Escapes`: ways of escaping that a reader of references undoes
* `attributeText`, `attributesText`: attributes as they stand in a tag
* `finds_startTag`, `finds_endTag`: tags are read back
-/

namespace XPathBench.Xml

open Reader Grammar

variable {α β : Type} {t u v w rest : List Char}

/-! ## What readers take -/

namespace Reader

variable {p q : Reader α} {f : α → Reader β} {j k : Nat}

/-- Whatever the reader finds takes `k` characters at least. -/
def Takes (k : Nat) (p : Reader α) : Prop :=
  ∀ t a u, p.Finds t a u → u.length + k ≤ t.length

theorem takes_pure {a : α} : Takes 0 (Pure.pure a : Reader α) := by
  intro t b u h
  obtain ⟨_, rfl⟩ := finds_pure.mp h
  exact Nat.le_refl _

theorem Takes.bind (hp : p.Takes j) (hf : ∀ a, (f a).Takes k) : (p >>= f).Takes (j + k) := by
  intro t b v h
  obtain ⟨a, u, h, h'⟩ := finds_bind.mp h
  have := hp _ _ _ h
  have := hf _ _ _ _ h'
  omega

theorem Takes.or (hp : p.Takes k) (hq : q.Takes k) : (p.or q).Takes k := by
  intro t a u h
  rcases finds_or.mp h with h | ⟨_, h⟩
  · exact hp _ _ _ h
  · exact hq _ _ _ h

theorem Takes.optional (hp : p.Takes 0) : (optional p).Takes 0 := by
  intro t o u h
  rcases finds_optional.mp h with ⟨a, _, h⟩ | ⟨_, rfl, _⟩
  · exact hp _ _ _ h
  · exact Nat.le_refl _

theorem Takes.discard (hp : p.Takes k) : (discard p : Reader Unit).Takes k := by
  intro t _ u h
  obtain ⟨a, h⟩ := finds_discard.mp h
  exact hp _ _ _ h

theorem takes_place : Takes 0 place := by
  intro t n u h
  obtain ⟨_, rfl⟩ := finds_place.mp h
  exact Nat.le_refl _

theorem takes_leading {c : Complaint} {r : List Char → Option (α × Nat)} :
    (leading c r).Takes 0 := by
  intro t a u h
  obtain ⟨n, _, rfl⟩ := finds_leading.mp h
  simp

theorem takes_literalAs {c : Complaint} {s : String} : (literalAs c s).Takes s.length := by
  intro t a u h
  rw [finds_literalAs.mp h, List.length_append, String.length_toList, Nat.add_comm]

theorem takes_space : space.Takes 1 := by
  intro t a u h
  obtain ⟨hahead, rfl⟩ := finds_space.mp h
  cases t with
  | nil => exact absurd notAhead_nil hahead
  | cons c t =>
    have hc : Text.isXmlBlank c = true := by simpa [notAhead_cons] using hahead
    simpa [hc] using (List.dropWhile_sublist (l := t) Text.isXmlBlank).length_le

theorem takes_spaces : spaces.Takes 0 := by
  intro t a u h
  rw [finds_spaces.mp h]
  exact (List.dropWhile_sublist _).length_le

theorem Takes.weaken (hp : p.Takes k) (h : j ≤ k) : p.Takes j := fun _ _ _ hf =>
  Nat.le_trans (Nat.add_le_add_left h _) (hp _ _ _ hf)

theorem Repeats.length_le {step : Reader (α ⊕ β)} {as : List α} {b : β} (h : step.Takes 0)
    (hr : Repeats step t as b u) : u.length ≤ t.length := by
  induction hr with
  | done h' => exact h _ _ _ h'
  | more h' _ ih => exact Nat.le_trans ih (h _ _ _ h')

theorem Takes.lt (hp : p.Takes 1) (t : List Char) (a : α) (u : List Char) (h : p.Finds t a u) :
    u.length < t.length := hp t a u h

theorem takes_untilEnd {step : Reader (α ⊕ β)} (h : step.Takes 0) : (untilEnd step).Takes 0 :=
  fun _ _ _ hfound => (finds_untilDone.mp hfound).1.length_le h

end Reader

/-! ## Escaped text -/

/-- Each character is written as it is, if it is plain, or as a reference by name. -/
structure Escapes (escape : Char → List Char) (plain : Char → Bool) : Prop where
  asIs : ∀ c, plain c = true → escape c = [c]
  byName : ∀ c, plain c = false → ∃ name, (name, c) ∈ namedCharacters ∧
    escape c = '&' :: (name.toList ++ [';'])

/-- The characters that stand for themselves in an attribute value. -/
def isPlainInValue (c : Char) : Bool :=
  !(c == '<' || c == '>' || c == '&' || c == '\'' || c == '"')

/-- The characters that stand for themselves in content. -/
def isPlainInText (c : Char) : Bool := !(c == '<' || c == '>' || c == '&')

theorem escapes_value : Escapes escapeValueChar isPlainInValue where
  asIs c h := by
    simp only [isPlainInValue, Bool.not_eq_true', Bool.or_eq_false_iff, beq_eq_false_iff_ne] at h
    simp [escapeValueChar, h]
  byName c h := by
    simp only [isPlainInValue, Bool.not_eq_false', Bool.or_eq_true, beq_iff_eq] at h
    rcases h with (((rfl | rfl) | rfl) | rfl) | rfl
    · exact ⟨"lt", by decide, by decide⟩
    · exact ⟨"gt", by decide, by decide⟩
    · exact ⟨"amp", by decide, by decide⟩
    · exact ⟨"apos", by decide, by decide⟩
    · exact ⟨"quot", by decide, by decide⟩

theorem escapes_text : Escapes escapeTextChar isPlainInText where
  asIs c h := by
    simp only [isPlainInText, Bool.not_eq_true', Bool.or_eq_false_iff, beq_eq_false_iff_ne] at h
    simp [escapeTextChar, h]
  byName c h := by
    simp only [isPlainInText, Bool.not_eq_false', Bool.or_eq_true, beq_iff_eq] at h
    rcases h with (rfl | rfl) | rfl
    · exact ⟨"lt", by decide, by decide⟩
    · exact ⟨"gt", by decide, by decide⟩
    · exact ⟨"amp", by decide, by decide⟩

theorem Escapes.flatMap_plain {escape : Char → List Char} {plain : Char → Bool}
    (he : Escapes escape plain) (hw : ∀ c ∈ w, plain c = true) : w.flatMap escape = w := by
  induction w with
  | nil => rfl
  | cons c w ih =>
    rw [List.forall_mem_cons] at hw
    rw [List.flatMap_cons, he.asIs c hw.1, ih hw.2, List.singleton_append]

/-- Escaped text goes on with a reference where a run of plain characters ends. -/
theorem Escapes.head_flatMap {escape : Char → List Char} {plain : Char → Bool}
    (he : Escapes escape plain) (hv : NotAhead plain v) :
    v = [] ∨ ∃ rest, v.flatMap escape = '&' :: rest := by
  cases v with
  | nil => exact .inl rfl
  | cons c v =>
    obtain ⟨name, _, hname⟩ := he.byName c (notAhead_cons.mp hv)
    exact .inr ⟨_, by rw [List.flatMap_cons, hname]; rfl⟩

/-- A text is taken apart into longest runs of characters of a kind and other characters. -/
theorem runs_induction (plain : Char → Bool) {P : List Char → Prop} (nil : P [])
    (other : ∀ c v, plain c = false → P v → P (c :: v))
    (run : ∀ w v, w ≠ [] → (∀ c ∈ w, plain c = true) → NotAhead plain v → P v → P (w ++ v))
    (v : List Char) : P v := by
  induction hn : v.length using Nat.strongRecOn generalizing v with
  | ind n ih =>
    cases v with
    | nil => exact nil
    | cons c v =>
      cases hc : plain c with
      | false => exact other c v hc (ih v.length (by simp [← hn]) v rfl)
      | true =>
        have hlen := (List.dropWhile_sublist (l := v) plain).length_le
        have hdrop := ih (v.dropWhile plain).length (by rw [← hn, List.length_cons]; omega) _ rfl
        rw [← List.takeWhile_append_dropWhile (p := plain) (l := c :: v)]
        refine run _ _ (by simp [hc]) (fun d hd => ?_) notAhead_dropWhile
          (by simpa [hc] using hdrop)
        exact List.all_eq_true.mp List.all_takeWhile d hd

/-! ## References -/

theorem isName_of_mem_namedCharacters {name : String} {c : Char}
    (h : (name, c) ∈ namedCharacters) : IsName name := by
  simp only [namedCharacters, List.mem_cons, Prod.mk.injEq, List.not_mem_nil, or_false] at h
  rcases h with ⟨rfl, _⟩ | ⟨rfl, _⟩ | ⟨rfl, _⟩ | ⟨rfl, _⟩ | ⟨rfl, _⟩ <;> decide

theorem resolve_named {name : String} {c : Char} {place : Nat}
    (h : (name, c) ∈ namedCharacters) : (Reference.named name).resolve place = .ok c := by
  simp only [namedCharacters, List.mem_cons, Prod.mk.injEq, List.not_mem_nil, or_false] at h
  rcases h with ⟨rfl, rfl⟩ | ⟨rfl, rfl⟩ | ⟨rfl, rfl⟩ | ⟨rfl, rfl⟩ | ⟨rfl, rfl⟩ <;> rfl

theorem finds_name_append {c : Complaint} {s : String} (hs : IsName s)
    (hrest : NotAhead (fun c => isNameChar c || c == ':') rest) :
    (name c).Finds (s.toList ++ rest) s rest :=
  finds_name.mpr ⟨leadingRun?_append hs hrest, rfl⟩

theorem finds_referenceValue {name : String} (h : IsName name) :
    referenceValue.Finds ('&' :: (name.toList ++ ';' :: rest))
      (.named name, (name.toList ++ ';' :: rest).length) rest := by
  refine finds_firstOf.mpr (.inl ?_)
  refine finds_bind.mpr ⟨(), _, finds_literalAs.mpr rfl, ?_⟩
  refine finds_bind.mpr ⟨_, _, finds_place.mpr ⟨rfl, rfl⟩, ?_⟩
  refine finds_bind.mpr ⟨name, _, finds_name_append h (notAhead_cons.mpr (by decide)), ?_⟩
  exact finds_bind.mpr ⟨(), rest, finds_literal.mpr rfl, finds_pure.mpr ⟨rfl, rfl⟩⟩

/-! ## Attributes -/

namespace Reader

theorem takes_run {c : Complaint} {stop : List Char → Bool} : (run c stop).Takes 1 := by
  intro t s u h
  obtain ⟨hne, rfl, _⟩ := finds_run.mp h
  have := List.length_pos_iff.mpr hne
  rw [List.length_append]
  omega

end Reader

theorem takes_referenceValue : referenceValue.Takes 1 := by
  have body {c : Complaint} {opening : String} {inner : Reader String}
      {make : String → Reference} (ho : 1 ≤ opening.length) (hi : inner.Takes 0) :
      (referenceValue.body c opening inner make).Takes 1 := by
    refine Takes.weaken (k := opening.length + (0 + (0 + (0 + 0)))) ?_ (by omega)
    refine takes_literalAs.bind fun _ => takes_place.bind fun _ => hi.bind fun _ => ?_
    exact (takes_literalAs.weaken (Nat.zero_le _)).bind fun _ => takes_pure
  exact (body (by decide) takes_leading).or <|
    (body (by decide) (takes_run.weaken (Nat.zero_le _))).or <|
      body (by decide) (takes_run.weaken (Nat.zero_le _))

theorem takes_valueStep {quote : Char} : (valueStep quote).Takes 1 := by
  refine (Takes.bind (j := 1) (k := 0) takes_run fun _ => takes_pure).or <| Takes.or ?_ ?_
  · exact Takes.bind (j := 1) (k := 0) takes_referenceValue fun _ => takes_pure
  · exact Takes.bind (j := 1) (k := 0) (takes_literalAs.weaken (by simp)) fun _ => takes_pure

/-- The attribute has the name and value that were said. -/
def WrittenAttribute.Says (a : WrittenAttribute) (said : PrefixedName × String) : Prop :=
  a.name = said.1 ∧ resolveValue a.value = .ok said.2

/-- An attribute as it stands in a tag, with the space before it. -/
def attributeText (said : PrefixedName × String) : List Char :=
  ' ' :: (said.1.text.toList ++ '=' :: '"' :: (said.2.toList.flatMap escapeValueChar ++ ['"']))

/-- The characters at which a run in an attribute value ends. -/
def endsValueRun (c : Char) : Bool := c == '&' || c == '<' || c == '"'

theorem isPlainInValue_not_ends {c : Char} (h : isPlainInValue c = true) :
    endsValueRun c = false := by
  simp only [isPlainInValue, Bool.not_eq_true', Bool.or_eq_false_iff, beq_eq_false_iff_ne] at h
  simp [endsValueRun, h]

theorem givesWay_valueText {c : Complaint} {d : Char} (hc : c.isFinal = false)
    (hd : endsValueRun d = true) : (valueText c '"').GivesWay (d :: u) := by
  refine givesWay_run.mpr ⟨runBefore_head.trans ?_, hc⟩
  rw [List.takeWhile_cons_of_neg]
  rw [Bool.not_eq_true, Bool.not_eq_false']
  exact hd

theorem finds_valueText {c : Complaint} (hne : w ≠ []) (hw : ∀ c ∈ w, isPlainInValue c = true)
    {d : Char} (hd : endsValueRun d = true) :
    (valueText c '"').Finds (w ++ d :: u) (String.ofList w) (d :: u) := by
  refine finds_run.mpr ⟨by simpa, by simp, ?_⟩
  rw [String.toList_ofList]
  exact runBefore_head.trans <| takeWhile_append_of_notAhead
    (fun c hc => congrArg (!·) (isPlainInValue_not_ends (hw c hc)))
    (notAhead_cons.mpr (congrArg (!·) hd))

theorem givesWay_referenceValue {c : Char} (hc : c ≠ '&') :
    referenceValue.GivesWay (c :: u) := by
  have body {complaint : Complaint} {opening : String} {inner : Reader String}
      {make : String → Reference} (ho : opening.toList.head? = some '&')
      (hf : complaint.isFinal = false) :
      (referenceValue.body complaint opening inner make).GivesWay (c :: u) := by
    refine givesWay_bind.mpr (.inl (givesWay_literalAs.mpr ⟨fun hp => hc ?_, hf⟩))
    obtain ⟨rest, hrest⟩ := hp
    cases ho' : opening.toList with
    | nil => simp [ho'] at ho
    | cons d _ =>
      rw [ho'] at hrest ho
      exact (List.cons.inj hrest).1.symm.trans (Option.some.inj ho)
  exact givesWay_firstOf.mpr ⟨body (by decide) rfl,
    givesWay_firstOf.mpr ⟨body (by decide) rfl, body (by decide) rfl⟩⟩

theorem repeats_value (v rest : List Char) :
    ∃ pieces, Repeats (valueStep '"') (v.flatMap escapeValueChar ++ '"' :: rest) pieces () rest ∧
      resolveValue pieces = .ok (String.ofList v) := by
  induction v using runs_induction isPlainInValue with
  | nil =>
    refine ⟨[], .done ?_, rfl⟩
    refine finds_firstOf.mpr (.inr ⟨givesWay_bind.mpr (.inl (givesWay_valueText rfl rfl)), ?_⟩)
    refine finds_firstOf.mpr (.inr
      ⟨givesWay_bind.mpr (.inl (givesWay_referenceValue (by decide))), ?_⟩)
    exact finds_bind.mpr ⟨(), rest, finds_literalAs.mpr (by simp), finds_pure.mpr ⟨rfl, rfl⟩⟩
  | other c v hc ih =>
    obtain ⟨pieces, hpieces, hv⟩ := ih
    obtain ⟨name, hname, hescape⟩ := escapes_value.byName c hc
    obtain ⟨n, hreference⟩ : ∃ n, referenceValue.Finds
        ((c :: v).flatMap escapeValueChar ++ '"' :: rest) (.named name, n)
        (v.flatMap escapeValueChar ++ '"' :: rest) := by
      rw [List.flatMap_cons, hescape, List.append_assoc, List.cons_append, List.append_assoc]
      exact ⟨_, finds_referenceValue (isName_of_mem_namedCharacters hname)⟩
    refine ⟨.reference (.named name) n :: pieces, .more (finds_firstOf.mpr (.inr ⟨?_, ?_⟩)) hpieces,
      ?_⟩
    · rw [List.flatMap_cons, hescape]
      exact givesWay_bind.mpr (.inl (givesWay_valueText rfl rfl))
    · exact finds_firstOf.mpr (.inl (finds_bind.mpr ⟨_, _, hreference, finds_pure.mpr ⟨rfl, rfl⟩⟩))
    · simp only [resolveValue, resolve_named hname, hv]
      exact congrArg Except.ok (String.toList_inj.mp (by simp))
  | run w v hne hw hv ih =>
    obtain ⟨pieces, hpieces, hvalue⟩ := ih
    obtain ⟨d, u, hd, hu⟩ : ∃ d u, endsValueRun d = true ∧
        v.flatMap escapeValueChar ++ '"' :: rest = d :: u := by
      rcases escapes_value.head_flatMap hv with rfl | ⟨u, hu⟩
      · exact ⟨'"', rest, rfl, rfl⟩
      · exact ⟨'&', _, rfl, by rw [hu, List.cons_append]⟩
    rw [hu] at hpieces
    rw [List.flatMap_append, escapes_value.flatMap_plain hw, List.append_assoc, hu]
    refine ⟨.text (String.ofList w) :: pieces, .more (finds_firstOf.mpr (.inl ?_)) hpieces, ?_⟩
    · exact finds_bind.mpr ⟨_, _, finds_valueText hne hw hd, finds_pure.mpr ⟨rfl, rfl⟩⟩
    · simp only [resolveValue, hvalue]
      exact congrArg Except.ok (String.toList_inj.mp (by simp))

theorem finds_openingQuote :
    ((openingQuote '"').or (openingQuote '\'')).Finds ('"' :: u) '"' u :=
  finds_or.mpr (.inl (finds_bind.mpr ⟨(), u, finds_literalAs.mpr (by simp),
    finds_pure.mpr ⟨rfl, rfl⟩⟩))

theorem finds_equals : equals.Finds ('=' :: '"' :: u) () ('"' :: u) := by
  refine finds_bind.mpr ⟨(), '=' :: '"' :: u, finds_spaces.mpr ?_, ?_⟩
  · exact (dropWhile_of_notAhead (notAhead_cons.mpr (by decide))).symm
  refine finds_bind.mpr ⟨(), '"' :: u, finds_literal.mpr rfl, finds_spaces.mpr ?_⟩
  exact (dropWhile_of_notAhead (notAhead_cons.mpr (by decide))).symm

theorem isXmlBlank_of_isNameStart {c : Char} (h : isNameStart c = true) :
    Text.isXmlBlank c = false := by
  rw [Bool.eq_false_iff]
  intro hblank
  have hnot := Text.of_isXmlBlank (p := fun c => isNameStart c = false) (by decide) hblank
  rw [h] at hnot
  cases hnot

theorem finds_attributeInTag {said : PrefixedName × String} (hn : said.1.Valid) :
    ∃ a, attributeInTag.Finds (attributeText said ++ rest) a rest ∧ a.Says said := by
  obtain ⟨n, v⟩ := said
  obtain ⟨pieces, hpieces, hv⟩ := repeats_value v.toList rest
  obtain ⟨c, _, hc, hstart⟩ := hn.exists_cons
  rw [String.ofList_toList] at hv
  let inner := n.text.toList ++ '=' :: '"' :: (v.toList.flatMap escapeValueChar ++ '"' :: rest)
  have htext : attributeText (n, v) ++ rest = ' ' :: inner := by simp [attributeText, inner]
  have hinner : NotAhead Text.isXmlBlank inner := by
    show NotAhead _ (n.text.toList ++ _)
    rw [hc]
    exact notAhead_cons.mpr (isXmlBlank_of_isNameStart hstart)
  refine ⟨⟨n, inner.length, pieces⟩, ?_, rfl, hv⟩
  rw [htext]
  refine finds_bind.mpr ⟨(), inner, finds_space.mpr ⟨?_, ?_⟩, ?_⟩
  · exact fun h => absurd (notAhead_cons.mp h) (by decide)
  · exact (dropWhile_of_notAhead hinner).symm
  refine finds_bind.mpr ⟨_, inner, finds_place.mpr ⟨rfl, rfl⟩, ?_⟩
  refine finds_bind.mpr ⟨n, _, finds_qName.mpr
    ⟨leadingQName?_text hn (notAhead_cons.mpr (by decide)), rfl⟩, ?_⟩
  refine finds_bind.mpr ⟨(), _, finds_equals, finds_bind.mpr ⟨'"', _, finds_openingQuote, ?_⟩⟩
  exact finds_bind.mpr ⟨(pieces, ()), rest,
    (finds_untilEnd fun t a => takes_valueStep.lt t (.inl a)).mpr hpieces,
    finds_pure.mpr ⟨rfl, rfl⟩⟩

/-! ## Start tags and end tags -/

theorem takes_attributeInTag : attributeInTag.Takes 1 := by
  refine Takes.weaken (k := 1 + (0 + (0 + (0 + (0 + (0 + 0)))))) ?_ (by omega)
  refine takes_space.bind fun _ => takes_place.bind fun _ => takes_leading.bind fun _ => ?_
  refine Takes.bind ?_ fun _ => Takes.bind ?_ fun _ => Takes.bind ?_ fun _ => takes_pure
  · exact takes_spaces.bind fun _ => (takes_literalAs.weaken (Nat.zero_le _)).bind
      fun _ => takes_spaces
  · exact ((takes_literalAs.weaken (Nat.zero_le _)).bind fun _ => takes_pure).or
      ((takes_literalAs.weaken (Nat.zero_le _)).bind fun _ => takes_pure)
  · exact takes_untilEnd (takes_valueStep.weaken (Nat.zero_le _))

theorem takes_tagStep : tagStep.Takes 1 := by
  have ending {c : Complaint} {s : String} {b : Bool} (hs : 1 ≤ s.length) :
      (do spaces; literalAs c s; return .inr b : Reader (WrittenAttribute ⊕ Bool)).Takes 1 :=
    Takes.weaken (takes_spaces.bind fun _ => takes_literalAs.bind fun _ => takes_pure) (by omega)
  refine Takes.or ?_ ((ending (by decide)).or (ending (by decide)))
  exact Takes.bind (j := 1) (k := 0) takes_attributeInTag fun _ => takes_pure

/-- The end of a start tag. -/
def tagEnding (selfClosing : Bool) : List Char := if selfClosing then ['/', '>'] else ['>']

theorem notAhead_tagEnding {selfClosing : Bool} :
    NotAhead Text.isXmlBlank (tagEnding selfClosing ++ rest) := by
  cases selfClosing <;> exact notAhead_cons.mpr (by decide)

theorem finds_tagStep_ending {selfClosing : Bool} :
    tagStep.Finds (tagEnding selfClosing ++ rest) (.inr selfClosing) rest := by
  have hspaces : spaces.Finds (tagEnding selfClosing ++ rest) () (tagEnding selfClosing ++ rest) :=
    finds_spaces.mpr (dropWhile_of_notAhead notAhead_tagEnding).symm
  refine finds_firstOf.mpr (.inr ⟨givesWay_bind.mpr (.inl ?_), finds_firstOf.mpr ?_⟩)
  · exact givesWay_bind.mpr (.inl (givesWay_space.mpr notAhead_tagEnding))
  cases selfClosing with
  | false =>
    refine .inl (finds_bind.mpr ⟨(), _, hspaces, finds_bind.mpr ⟨(), rest, ?_, ?_⟩⟩)
    · exact finds_literalAs.mpr rfl
    · exact finds_pure.mpr ⟨rfl, rfl⟩
  | true =>
    refine .inr ⟨givesWay_bind.mpr (.inr ⟨(), _, hspaces, givesWay_bind.mpr (.inl ?_)⟩), ?_⟩
    · exact givesWay_literalAs.mpr ⟨by simp [tagEnding], rfl⟩
    · exact finds_bind.mpr ⟨(), _, hspaces, finds_bind.mpr
        ⟨(), rest, finds_literalAs.mpr rfl, finds_pure.mpr ⟨rfl, rfl⟩⟩⟩

theorem repeats_attributes {said : List (PrefixedName × String)}
    (hn : ∀ s ∈ said, s.1.Valid) (selfClosing : Bool) (rest : List Char) :
    ∃ as, Repeats tagStep (said.flatMap attributeText ++ (tagEnding selfClosing ++ rest)) as
      selfClosing rest ∧ List.Forall₂ WrittenAttribute.Says as said := by
  induction said with
  | nil => exact ⟨[], .done finds_tagStep_ending, .nil⟩
  | cons s said ih =>
    rw [List.forall_mem_cons] at hn
    obtain ⟨as, has, hrest⟩ := ih hn.2
    obtain ⟨a, ha, hsay⟩ := finds_attributeInTag hn.1
    rw [List.flatMap_cons, List.append_assoc]
    refine ⟨a :: as, .more (finds_firstOf.mpr (.inl ?_)) has, .cons hsay hrest⟩
    exact finds_bind.mpr ⟨a, _, ha, finds_pure.mpr ⟨rfl, rfl⟩⟩

/-- A start tag as it is written. -/
def startTagText (name : PrefixedName) (said : List (PrefixedName × String))
    (selfClosing : Bool) : List Char :=
  '<' :: (name.text.toList ++ said.flatMap attributeText ++ tagEnding selfClosing)

/-- The start tag has the name, the attributes and the end that were said. -/
structure StartTag.Says (tag : StartTag) (name : PrefixedName)
    (said : List (PrefixedName × String)) (selfClosing : Bool) : Prop where
  name_eq : tag.name = name
  attributes : List.Forall₂ WrittenAttribute.Says tag.attributes said
  selfClosing_eq : tag.selfClosing = selfClosing

theorem endsName_tag {said : List (PrefixedName × String)} {selfClosing : Bool} :
    EndsName (said.flatMap attributeText ++ (tagEnding selfClosing ++ rest)) := by
  cases said with
  | nil => cases selfClosing <;> exact notAhead_cons.mpr (by decide)
  | cons s said => exact notAhead_cons.mpr (by decide)

theorem finds_tagBracket {c : Char} (h : isNameStart c = true) :
    tagBracket.Finds ('<' :: c :: u) () (c :: u) := by
  refine finds_leading.mpr ⟨1, ?_, rfl⟩
  split
  · next heq => cases heq; revert h; decide
  · next heq => cases heq; revert h; decide
  · next heq => cases heq; revert h; decide
  · rfl
  · next hno => exact absurd rfl (hno _)

theorem finds_startTag {name : PrefixedName} {said : List (PrefixedName × String)}
    {selfClosing : Bool} (hname : name.Valid) (hsaid : ∀ s ∈ said, s.1.Valid) :
    ∃ tag, startTag.Finds (startTagText name said selfClosing ++ rest) (.opening tag) rest ∧
      tag.Says name said selfClosing := by
  obtain ⟨as, has, hsay⟩ := repeats_attributes hsaid selfClosing rest
  obtain ⟨c, _, hc, hstart⟩ := hname.exists_cons
  let inner := name.text.toList ++ (said.flatMap attributeText ++ (tagEnding selfClosing ++ rest))
  have htext : startTagText name said selfClosing ++ rest = '<' :: inner := by
    simp [startTagText, inner]
  refine ⟨⟨name, inner.length, as, selfClosing⟩, ?_, rfl, hsay, rfl⟩
  rw [htext]
  refine finds_bind.mpr ⟨(), inner, ?_, ?_⟩
  · simp only [inner, hc]
    exact finds_tagBracket hstart
  refine finds_bind.mpr ⟨_, inner, finds_place.mpr ⟨rfl, rfl⟩, ?_⟩
  refine finds_bind.mpr ⟨name, _, finds_qName.mpr ⟨leadingQName?_text hname endsName_tag, rfl⟩, ?_⟩
  exact finds_bind.mpr ⟨(as, selfClosing), rest,
    (finds_untilEnd fun t a => takes_tagStep.lt t (.inl a)).mpr has, finds_pure.mpr ⟨rfl, rfl⟩⟩

/-- An end tag as it is written. -/
def endTagText (name : PrefixedName) : List Char := '<' :: '/' :: (name.text.toList ++ ['>'])

theorem finds_endTag {name : PrefixedName} (hname : name.Valid) (rest : List Char) :
    ∃ place, endTag.Finds (endTagText name ++ rest) (.closing name place) rest := by
  let inner := name.text.toList ++ '>' :: rest
  refine ⟨inner.length, finds_bind.mpr ⟨(), inner, finds_literal.mpr ?_, ?_⟩⟩
  · simp [endTagText, inner]
  refine finds_bind.mpr ⟨_, inner, finds_place.mpr ⟨rfl, rfl⟩, ?_⟩
  refine finds_bind.mpr ⟨name, '>' :: rest, finds_qName.mpr
    ⟨leadingQName?_text hname (notAhead_cons.mpr (by decide)), rfl⟩, ?_⟩
  refine finds_bind.mpr ⟨(), '>' :: rest, finds_spaces.mpr ?_, ?_⟩
  · exact (dropWhile_of_notAhead (notAhead_cons.mpr (by decide))).symm
  · exact finds_bind.mpr ⟨(), rest, finds_literal.mpr rfl, finds_pure.mpr ⟨rfl, rfl⟩⟩

end XPathBench.Xml
