import XPathBench.Proofs.Xml.Names
import XPathBench.Proofs.Text.Runs
import XPathBench.Xml.Reader

/-!
# What readers find

A reader is judged by what it finds and what it leaves, and by whether it gives way to another way
of reading; what it complains of is left out. Every combinator has one equivalence for each of the
two notions, which serves to build readings and to take them apart.

* `Reader.Finds`: a value is found, and a text is left
* `Reader.GivesWay`: nothing is found, and another reader may be tried
* `Reader.Repeats`: a step read again and again until it says that it is done
-/

namespace XPathBench.Xml.Reader

variable {α β : Type} {p q : Reader α} {f : α → Reader β} {t u v w : List Char} {a : α} {b : β}

/-- On the text `t` the reader finds `a` and leaves `u`. -/
def Finds (p : Reader α) (t : List Char) (a : α) (u : List Char) : Prop :=
  ∃ tried, p (.of t) = .found a (.of u) tried

/-- On the text `t` the reader is stuck, and another one may be tried. -/
def GivesWay (p : Reader α) (t : List Char) : Prop :=
  ∃ fault tried, p (.of t) = .stuck fault tried ∧ fault.complaint.isFinal = false

theorem of_inj (h : Cursor.of t = Cursor.of u) : t = u := congrArg Cursor.rest h

theorem Finds.unique {b : α} (h : p.Finds t a u) (h' : p.Finds t b v) : a = b ∧ u = v := by
  obtain ⟨_, h⟩ := h
  obtain ⟨_, h'⟩ := h'
  rw [h] at h'
  injection h' with ha hu
  exact ⟨ha, of_inj hu⟩

theorem Finds.not_givesWay (h : p.Finds t a u) : ¬ p.GivesWay t := by
  rintro ⟨_, _, hstuck, -⟩
  obtain ⟨_, hfound⟩ := h
  rw [hstuck] at hfound
  cases hfound

/-! ## Sequence -/

theorem finds_pure {a' : α} : (Pure.pure a' : Reader α).Finds t a u ↔ a = a' ∧ u = t := by
  constructor
  · rintro ⟨_, h⟩
    injection h with ha hu
    exact ⟨ha.symm, (of_inj hu).symm⟩
  · rintro ⟨rfl, rfl⟩
    exact ⟨_, rfl⟩

theorem not_givesWay_pure : ¬ (Pure.pure a : Reader α).GivesWay t := by
  rintro ⟨_, _, h, _⟩
  cases h

theorem bind_found {tried : Furthest} (h : p (.of t) = .found a (.of u) tried) :
    (p >>= f) (.of t) = match f a (.of u) with
      | .stuck fault tried' => .stuck fault (tried.join tried')
      | .found b next tried' => .found b next (tried.join tried') := by
  show Reader.bind p f (.of t) = _
  unfold Reader.bind
  cases hp : p (.of t) with
  | stuck => cases hp.symm.trans h
  | found =>
    cases hp.symm.trans h
    rfl

theorem bind_stuck {fault : Fault} {tried : Furthest} (h : p (.of t) = .stuck fault tried) :
    (p >>= f) (.of t) = .stuck fault tried := by
  show Reader.bind p f (.of t) = _
  rw [Reader.bind, h]

theorem finds_bind : (p >>= f).Finds t b v ↔ ∃ a u, p.Finds t a u ∧ (f a).Finds u b v := by
  constructor
  · rintro ⟨_, h⟩
    cases hp : p (.of t) with
    | stuck => rw [bind_stuck hp] at h; cases h
    | found a next tried =>
      rw [← Cursor.of_rest next] at hp
      rw [bind_found hp] at h
      cases hf : f a (.of next.rest) with
      | stuck => simp only [hf] at h; cases h
      | found b' next' tried' =>
        simp only [hf] at h
        injection h with hb hv
        exact ⟨a, next.rest, ⟨_, hp⟩, _, hb ▸ hv ▸ hf⟩
  · rintro ⟨a, u, ⟨_, hp⟩, _, hf⟩
    exact ⟨_, by rw [bind_found hp, hf]⟩

theorem givesWay_bind :
    (p >>= f).GivesWay t ↔ p.GivesWay t ∨ ∃ a u, p.Finds t a u ∧ (f a).GivesWay u := by
  constructor
  · rintro ⟨fault, _, h, hfinal⟩
    cases hp : p (.of t) with
    | stuck =>
      rw [bind_stuck hp] at h
      injection h with h
      exact .inl ⟨_, _, hp, h ▸ hfinal⟩
    | found a next tried =>
      rw [← Cursor.of_rest next] at hp
      rw [bind_found hp] at h
      cases hf : f a (.of next.rest) with
      | found => simp only [hf] at h; cases h
      | stuck =>
        simp only [hf] at h
        injection h with h
        exact .inr ⟨a, next.rest, ⟨_, hp⟩, _, _, hf, h ▸ hfinal⟩
  · rintro (⟨_, _, hp, hfinal⟩ | ⟨a, u, ⟨_, hp⟩, _, _, hf, hfinal⟩)
    · exact ⟨_, _, bind_stuck hp, hfinal⟩
    · exact ⟨_, _, by rw [bind_found hp, hf], hfinal⟩

theorem finds_discard {x : Unit} : (discard p : Reader Unit).Finds t x u ↔ ∃ a, p.Finds t a u := by
  show (p >>= fun _ => Pure.pure ()).Finds t x u ↔ _
  simp only [finds_bind, finds_pure, true_and]
  exact ⟨fun ⟨a, _, h, hu⟩ => ⟨a, hu ▸ h⟩, fun ⟨a, h⟩ => ⟨a, u, h, rfl⟩⟩

theorem givesWay_discard : (discard p : Reader Unit).GivesWay t ↔ p.GivesWay t := by
  show (p >>= fun _ => Pure.pure ()).GivesWay t ↔ _
  simp only [givesWay_bind, not_givesWay_pure, and_false, exists_false, or_false]

/-! ## Alternatives -/

theorem finds_or : (p.or q).Finds t a u ↔ p.Finds t a u ∨ p.GivesWay t ∧ q.Finds t a u := by
  simp only [Finds, GivesWay, Reader.or]
  cases p (.of t) with
  | found => simp
  | stuck fault =>
    cases hf : fault.complaint.isFinal with
    | true => simp [hf]
    | false => cases q (.of t) <;> simp [hf]

theorem givesWay_or : (p.or q).GivesWay t ↔ p.GivesWay t ∧ q.GivesWay t := by
  simp only [GivesWay, Reader.or]
  cases p (.of t) with
  | found => simp
  | stuck fault =>
    cases hf : fault.complaint.isFinal with
    | true => simp [hf]
    | false => cases q (.of t) <;> simp [hf]

theorem finds_firstOf {ps : List (Reader α)} :
    (firstOf q (p :: ps)).Finds t a u ↔
      p.Finds t a u ∨ p.GivesWay t ∧ (firstOf q ps).Finds t a u := finds_or

theorem Finds.first {ps : List (Reader α)} (h : p.Finds t a u) :
    (firstOf q (p :: ps)).Finds t a u := finds_firstOf.mpr (.inl h)

theorem GivesWay.next {ps : List (Reader α)} (h : p.GivesWay t)
    (h' : (firstOf q ps).Finds t a u) : (firstOf q (p :: ps)).Finds t a u :=
  finds_firstOf.mpr (.inr ⟨h, h'⟩)

theorem givesWay_firstOf {ps : List (Reader α)} :
    (firstOf q (p :: ps)).GivesWay t ↔ p.GivesWay t ∧ (firstOf q ps).GivesWay t := givesWay_or

theorem finds_optional {o : Option α} :
    (optional p).Finds t o u ↔
      (∃ a, o = some a ∧ p.Finds t a u) ∨ o = none ∧ u = t ∧ p.GivesWay t := by
  simp only [Finds, GivesWay, optional]
  cases p (.of t) with
  | found a next tried =>
    simp only [Reading.found.injEq, reduceCtorEq, false_and, exists_false, and_false, or_false]
    exact ⟨fun ⟨_, ho, hu, _⟩ => ⟨a, ho.symm, tried, rfl, hu, rfl⟩,
      fun ⟨_, ho, _, ha, hu, _⟩ => ⟨tried, by rw [ho, ha], hu, rfl⟩⟩
  | stuck fault tried =>
    cases hf : fault.complaint.isFinal with
    | true => simp [hf]
    | false =>
      simp only [hf, Bool.false_eq_true, if_false, reduceCtorEq, exists_false, and_false, false_or,
        Reading.found.injEq, Reading.stuck.injEq]
      constructor
      · rintro ⟨_, ho, hu, _⟩
        exact ⟨ho.symm, (of_inj hu).symm, fault, tried, ⟨rfl, rfl⟩, hf⟩
      · rintro ⟨rfl, rfl, _⟩
        exact ⟨tried, rfl, rfl, rfl⟩

/-! ## Pieces of text -/

theorem finds_place {n : Nat} : place.Finds t n u ↔ n = t.length ∧ u = t := by
  constructor
  · rintro ⟨_, h⟩
    injection h with hn hu
    exact ⟨hn.symm, (of_inj hu).symm⟩
  · rintro ⟨rfl, rfl⟩
    exact ⟨_, rfl⟩

theorem finds_leading {c : Complaint} {r : List Char → Option (α × Nat)} :
    (leading c r).Finds t a u ↔ ∃ n, r t = some (a, n) ∧ u = t.drop n := by
  simp only [Finds, leading, Cursor.rest_of]
  cases r t with
  | none => simp
  | some found =>
    simp only [Cursor.advance_of, Reading.found.injEq, Option.some.injEq]
    constructor
    · rintro ⟨_, rfl, hu, _⟩
      exact ⟨found.2, rfl, (of_inj hu).symm⟩
    · rintro ⟨n, rfl, rfl⟩
      exact ⟨_, rfl, rfl, rfl⟩

theorem givesWay_leading {c : Complaint} {r : List Char → Option (α × Nat)} :
    (leading c r).GivesWay t ↔ r t = none ∧ c.isFinal = false := by
  simp only [GivesWay, leading, Cursor.rest_of]
  cases r t <;> simp

theorem finds_literalAs {c : Complaint} {s : String} {x : Unit} :
    (literalAs c s).Finds t x u ↔ t = s.toList ++ u := by
  simp only [literalAs, finds_leading, List.isPrefixOf_iff_prefix]
  constructor
  · rintro ⟨n, hn, rfl⟩
    split at hn
    · next hp =>
      obtain ⟨w, rfl⟩ := hp
      obtain rfl : s.length = n := by simpa using hn
      simp [← String.length_toList]
    · cases hn
  · rintro rfl
    exact ⟨s.length, by simp, by simp [← String.length_toList]⟩

theorem givesWay_literalAs {c : Complaint} {s : String} :
    (literalAs c s).GivesWay t ↔ ¬ s.toList <+: t ∧ c.isFinal = false := by
  simp [literalAs, givesWay_leading]

theorem finds_literal {s : String} {x : Unit} :
    (literal s).Finds t x u ↔ t = s.toList ++ u := finds_literalAs

theorem givesWay_literal {s : String} : (literal s).GivesWay t ↔ ¬ s.toList <+: t := by
  simp [literal, givesWay_literalAs, Complaint.isFinal]

/-! ## Runs -/

theorem runBefore_append_drop (stop : List Char → Bool) (t : List Char) :
    runBefore stop t ++ t.drop (runBefore stop t).length = t := by
  induction t with
  | nil => rfl
  | cons c t ih =>
    simp only [runBefore]
    split
    · rfl
    · simpa using ih

theorem runBefore_head {bad : Char → Bool} :
    runBefore (fun cs => cs.head?.any bad) t = t.takeWhile fun c => !bad c := by
  induction t with
  | nil => rfl
  | cons c t ih => cases h : bad c <;> simp [runBefore, h, ih]

theorem runBefore_not_head {good : Char → Bool} :
    runBefore (fun cs => !cs.head?.any good) t = t.takeWhile good := by
  induction t with
  | nil => rfl
  | cons c t ih => cases h : good c <;> simp [runBefore, h, ih]

theorem finds_run {c : Complaint} {stop : List Char → Bool} {s : String} :
    (run c stop).Finds t s u ↔
      s.toList ≠ [] ∧ t = s.toList ++ u ∧ runBefore stop t = s.toList := by
  simp only [run, finds_leading]
  constructor
  · rintro ⟨n, hn, rfl⟩
    have hsplit := runBefore_append_drop stop t
    split at hn
    · cases hn
    · next c w hw =>
      obtain ⟨rfl, rfl⟩ : String.ofList (c :: w) = s ∧ w.length + 1 = n := by simpa using hn
      rw [hw] at hsplit
      simpa [hw] using hsplit.symm
  · rintro ⟨hne, ht, hw⟩
    refine ⟨s.toList.length, ?_, by rw [ht, List.drop_left]⟩
    rw [hw]
    split
    · next hs => exact absurd hs hne
    · next hs => rw [← hs, hs, List.length_cons, ← hs, String.ofList_toList]

theorem givesWay_run {c : Complaint} {stop : List Char → Bool} :
    (run c stop).GivesWay t ↔ runBefore stop t = [] ∧ c.isFinal = false := by
  simp only [run, givesWay_leading]
  cases runBefore stop t <;> simp

theorem finds_many1 {c : Complaint} {good : Char → Bool} {s : String} :
    (many1 c good).Finds t s u ↔
      s.toList ≠ [] ∧ t = s.toList ++ u ∧ t.takeWhile good = s.toList := by
  rw [many1, finds_run, runBefore_not_head]

theorem givesWay_many1 {c : Complaint} {good : Char → Bool} :
    (many1 c good).GivesWay t ↔ NotAhead good t ∧ c.isFinal = false := by
  rw [many1, givesWay_run]
  cases t <;> simp [runBefore, notAhead_nil, notAhead_cons]

theorem finds_upTo {c : Complaint} {mark s : String} :
    (upTo c mark).Finds t s u ↔
      Text.before? mark.toList t = some s.toList ∧ t = s.toList ++ u := by
  simp only [upTo, finds_leading, Option.map_eq_some_iff]
  constructor
  · rintro ⟨n, ⟨w, hw, hn⟩, rfl⟩
    obtain ⟨rfl, rfl⟩ : String.ofList w = s ∧ w.length = n := by simpa using hn
    obtain ⟨u, rfl, _⟩ := Text.before?_eq_some_append hw
    simpa using hw
  · rintro ⟨hw, rfl⟩
    exact ⟨s.toList.length, ⟨_, hw, by simp⟩, by simp⟩

theorem finds_name {c : Complaint} {s : String} :
    (name c).Finds t s u ↔ leadingName? t = some s.toList ∧ t = s.toList ++ u := by
  simp only [name, finds_leading, Option.map_eq_some_iff]
  constructor
  · rintro ⟨n, ⟨w, hw, hn⟩, rfl⟩
    obtain ⟨rfl, rfl⟩ : String.ofList w = s ∧ w.length = n := by simpa using hn
    obtain ⟨_, u, rfl, _⟩ := leadingRun?_eq_some hw
    exact ⟨by simpa using hw, by simp⟩
  · rintro ⟨hw, rfl⟩
    exact ⟨s.toList.length, ⟨_, hw, by simp⟩, by simp⟩

theorem finds_qName {c : Complaint} {n : PrefixedName} :
    (qName c).Finds t n u ↔ leadingQName? t = some n ∧ t = n.text.toList ++ u := by
  simp only [qName, finds_leading, Option.map_eq_some_iff, Prod.mk.injEq]
  constructor
  · rintro ⟨_, ⟨_, hn, rfl, rfl⟩, rfl⟩
    obtain ⟨_, u, rfl⟩ := leadingQName?_eq_some hn
    exact ⟨hn, by rw [PrefixedName.width_eq, List.drop_left]⟩
  · rintro ⟨hn, rfl⟩
    exact ⟨_, ⟨n, hn, rfl, rfl⟩, by rw [PrefixedName.width_eq, List.drop_left]⟩

/-! ## Blanks -/

theorem finds_space {x : Unit} :
    space.Finds t x u ↔ ¬ NotAhead Text.isXmlBlank t ∧ u = t.dropWhile Text.isXmlBlank := by
  show (discard (many1 _ _) : Reader Unit).Finds t x u ↔ _
  simp only [finds_discard, finds_many1]
  have hsplit := List.takeWhile_append_dropWhile (p := Text.isXmlBlank) (l := t)
  have hne : t.takeWhile Text.isXmlBlank ≠ [] ↔ ¬ NotAhead Text.isXmlBlank t := by
    cases t <;> simp [notAhead_nil, notAhead_cons]
  constructor
  · rintro ⟨s, hs, ht, hw⟩
    refine ⟨hne.mp (hw ▸ hs), ?_⟩
    rw [hw] at hsplit
    exact (List.append_cancel_left (hsplit.trans ht)).symm
  · rintro ⟨hahead, rfl⟩
    exact ⟨String.ofList (t.takeWhile Text.isXmlBlank), by simpa using hne.mpr hahead,
      by simp, by simp⟩

theorem givesWay_space : space.GivesWay t ↔ NotAhead Text.isXmlBlank t := by
  show (discard (many1 _ _) : Reader Unit).GivesWay t ↔ _
  simp [givesWay_discard, givesWay_many1, Complaint.isFinal]

theorem finds_spaces {x : Unit} : spaces.Finds t x u ↔ u = t.dropWhile Text.isXmlBlank := by
  show (discard (optional space) : Reader Unit).Finds t x u ↔ _
  simp only [finds_discard, finds_optional, givesWay_space, finds_space]
  by_cases h : NotAhead Text.isXmlBlank t
  · have hdrop : t.dropWhile Text.isXmlBlank = t := by
      cases t <;> simp_all [notAhead_cons]
    simp [h, hdrop]
  · simp only [h, not_false_eq_true, true_and, and_false, or_false]
    exact ⟨fun ⟨_, _, _, hu⟩ => hu, fun hu => ⟨some (), (), rfl, hu⟩⟩

/-! ## Repetition -/

/-- From `t` on, the step finds the items one after the other, says that it is done with `b`, and
leaves `u`. -/
inductive Repeats (step : Reader (α ⊕ β)) : List Char → List α → β → List Char → Prop where
  | done {t : List Char} {b : β} {u : List Char} :
    step.Finds t (.inr b) u → Repeats step t [] b u
  | more {t : List Char} {a : α} {u : List Char} {as : List α} {b : β} {v : List Char} :
    step.Finds t (.inl a) u → Repeats step u as b v → Repeats step t (a :: as) b v

variable {step : Reader (α ⊕ β)} {as : List α}

theorem finds_untilDone {n : Nat} :
    (untilDone step n).Finds t (as, b) u ↔ Repeats step t as b u ∧ as.length < n := by
  induction n generalizing t as with
  | zero => simp [untilDone, complain, Finds]
  | succ n ih =>
    rw [untilDone, finds_bind]
    constructor
    · rintro ⟨found, t', hfound, h⟩
      cases found with
      | inr last =>
        obtain ⟨heq, rfl⟩ := finds_pure.mp h
        obtain ⟨rfl, rfl⟩ := Prod.mk.inj heq
        exact ⟨.done hfound, Nat.succ_pos n⟩
      | inl item =>
        obtain ⟨⟨items, last⟩, u', hitems, h⟩ := finds_bind.mp h
        obtain ⟨heq, rfl⟩ := finds_pure.mp h
        obtain ⟨rfl, rfl⟩ := Prod.mk.inj heq
        obtain ⟨hitems, hlen⟩ := ih.mp hitems
        exact ⟨.more hfound hitems, Nat.succ_lt_succ hlen⟩
    · rintro ⟨h, hlen⟩
      cases h with
      | done hdone => exact ⟨_, _, hdone, finds_pure.mpr ⟨rfl, rfl⟩⟩
      | more hitem hmore =>
        exact ⟨_, _, hitem, finds_bind.mpr
          ⟨(_, _), _, ih.mpr ⟨hmore, Nat.lt_of_succ_lt_succ hlen⟩, finds_pure.mpr ⟨rfl, rfl⟩⟩⟩

/-- A step that takes a character for each item is repeated as often as it has to be. -/
theorem finds_untilEnd (hstep : ∀ t a u, step.Finds t (.inl a) u → u.length < t.length) :
    (untilEnd step).Finds t (as, b) u ↔ Repeats step t as b u := by
  have hlen : Repeats step t as b u → as.length ≤ t.length := by
    intro h
    induction h with
    | done => exact Nat.zero_le _
    | more h _ ih => exact Nat.lt_of_le_of_lt ih (hstep _ _ _ h)
  show (untilDone step (t.length + 1)).Finds t (as, b) u ↔ _
  rw [finds_untilDone]
  exact ⟨And.left, fun h => ⟨h, Nat.lt_succ_of_le (hlen h)⟩⟩

/-! ## Properties of what is found -/

/-- Whatever the reader finds has the property. -/
def Yields (p : Reader α) (P : α → Prop) : Prop := ∀ t a u, p.Finds t a u → P a

variable {P : α → Prop} {Q : β → Prop}

theorem yields_pure (h : P a) : (Pure.pure a : Reader α).Yields P := by
  intro t a' u h'
  rwa [(finds_pure.mp h').1]

theorem Yields.bindWith (hp : p.Yields P) (hf : ∀ a, P a → (f a).Yields Q) :
    (p >>= f).Yields Q := by
  intro t b v h
  obtain ⟨a, u, h, h'⟩ := finds_bind.mp h
  exact hf a (hp t a u h) u b v h'

theorem Yields.bind (hf : ∀ a, (f a).Yields Q) : (p >>= f).Yields Q :=
  Yields.bindWith (P := fun _ => True) (fun _ _ _ _ => trivial) fun a _ => hf a

theorem Yields.or (hp : p.Yields P) (hq : q.Yields P) : (p.or q).Yields P := by
  intro t a u h
  rcases finds_or.mp h with h | ⟨_, h⟩
  · exact hp t a u h
  · exact hq t a u h

theorem yields_untilEnd (h : step.Yields fun found => ∀ a, found = .inl a → P a) :
    (untilEnd step).Yields fun found => ∀ a ∈ found.1, P a := by
  rintro t ⟨as, b⟩ u hfound
  have hrepeats := (finds_untilDone.mp hfound).1
  clear hfound
  induction hrepeats with
  | done => simp
  | more hitem _ ih => exact List.forall_mem_cons.mpr ⟨h _ _ _ hitem _ rfl, ih⟩

end XPathBench.Xml.Reader
