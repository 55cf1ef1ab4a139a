import Mathlib.Tactic.Choose
import XPathBench.Proofs.XPath.Environments
import XPathBench.Proofs.XPath.Runs
import XPathBench.Proofs.XPath.Selections

/-!
# Steps with prefixes

A step that tests for a name with a prefix leads to the places on its axis whose names are in the
namespace of the prefix. Without a namespace for the prefix it crashes at the first place that it
would have to test.

* `Place.NamedIn`: places that such a step asks for
* `Query.evaluate_eq`: a query has the value of its expression
* `Query.exists_evaluate_step`: what a query selects whose last step is such a one
* `Query.evaluate_step_unbound`: how it ends if the prefix is not bound
-/

namespace XPathBench.XPath

open Environment

/-! ## Lists -/

section Lists

variable {α β ε : Type} {xs : List α} {e : ε}

theorem filterM_eq_ok {f : α → Except ε Bool} {g : α → Bool} (h : ∀ x ∈ xs, f x = .ok (g x)) :
    xs.filterM f = .ok (xs.filter g) := by
  have haux (acc : List α) : xs.filterAuxM f acc = .ok ((xs.filter g).reverse ++ acc) := by
    induction xs generalizing acc with
    | nil => rfl
    | cons x xs ih =>
      obtain ⟨hx, hxs⟩ := List.forall_mem_cons.mp h
      show (f x >>= fun b => xs.filterAuxM f (cond b (x :: acc) acc)) = _
      rw [hx]
      refine (ih hxs _).trans ?_
      cases hg : g x <;> simp [hg]
  show (xs.filterAuxM f [] >>= fun kept => pure kept.reverse) = _
  rw [haux, List.append_nil]
  exact congrArg Except.ok (List.reverse_reverse _)

/-- A filter ends with the first thing that goes wrong. -/
theorem filterM_eq_error {f : α → Except ε Bool}
    (h : ∀ x ∈ xs, (∃ b, f x = .ok b) ∨ f x = .error e) (hx : ∃ x ∈ xs, f x = .error e) :
    xs.filterM f = .error e := by
  have haux (acc : List α) : xs.filterAuxM f acc = .error e := by
    induction xs generalizing acc with
    | nil => simp at hx
    | cons x xs ih =>
      obtain ⟨hfirst, hrest⟩ := List.forall_mem_cons.mp h
      show (f x >>= fun b => xs.filterAuxM f (cond b (x :: acc) acc)) = _
      obtain ⟨b, hb⟩ | hb := hfirst
      · rw [hb]
        obtain ⟨y, hy, hfy⟩ := hx
        obtain rfl | hy := List.mem_cons.mp hy
        · cases hb.symm.trans hfy
        · exact ih hrest ⟨y, hy, hfy⟩ _
      · rw [hb]
        rfl
  show (xs.filterAuxM f [] >>= fun kept => pure kept.reverse) = _
  rw [haux]
  rfl

theorem mapM_eq_error {f : α → Except ε β} (h : ∀ x ∈ xs, (∃ b, f x = .ok b) ∨ f x = .error e)
    (hx : ∃ x ∈ xs, f x = .error e) : xs.mapM f = .error e := by
  induction xs with
  | nil => simp at hx
  | cons x xs ih =>
    obtain ⟨hfirst, hrest⟩ := List.forall_mem_cons.mp h
    rw [List.mapM_cons]
    obtain ⟨b, hb⟩ | hb := hfirst
    · obtain ⟨y, hy, hfy⟩ := hx
      obtain rfl | hy := List.mem_cons.mp hy
      · cases hb.symm.trans hfy
      · rw [hb, ih hrest ⟨y, hy, hfy⟩]
        rfl
    · rw [hb]
      rfl

end Lists

/-! ## Steps -/

/-- A step along an axis leads to the place if the place is of the kind that names on the axis
belong to and has a name in the namespace, any one or the one asked for. -/
def Place.NamedIn (axis : Axis) (uri : String) (localName : Option String) (q : Place) : Prop :=
  isPrincipal q axis = true ∧ ∃ found, q.expandedName? = some (some uri, found) ∧
    ∀ name ∈ localName, name = found

section Steps

variable {env : Environment} {axis : Axis} {p uri : String} {localName : Option String}

theorem exists_passes_prefixed (h : lastBinding? env.namespaces p = some uri) (axis : Axis)
    (localName : Option String) (q : Place) :
    ∃ passes, env.passes axis q (.name ⟨some p, localName⟩) = .ok passes ∧
      (passes = true ↔ q.NamedIn axis uri localName) := by
  unfold passes Place.NamedIn
  cases isPrincipal q axis with
  | false => exact ⟨false, rfl, by simp⟩
  | true =>
    obtain ⟨passes, hpasses, hiff⟩ := passesNameTest_prefixed h q localName
    exact ⟨passes, hpasses, by simpa using hiff⟩

theorem passes_unbound (h : lastBinding? env.namespaces p = none) (q : Place) :
    env.passes axis q (.name ⟨some p, localName⟩) =
      if isPrincipal q axis then .error (.crash (.message "No namespace for prefix"))
      else .ok false := by
  unfold passes
  simp only [passesNameTest_unbound h]

/-- A step from some places, as places of the document. -/
theorem exists_follow_prefixed (h : lastBinding? env.namespaces p = some uri)
    (places : List Place) (axis : Axis) (localName : Option String) :
    ∃ found, (Step.mk axis (.name ⟨some p, localName⟩) []).follow env places = .ok found ∧
      ∀ q, q ∈ found ↔ q ∈ Place.ofDocument env.document ∧
        ∃ r ∈ places, ∃ q' ∈ onAxis r axis, q'.NamedIn axis uri localName ∧ q.same q' = true := by
  choose passes hpasses hiff using exists_passes_prefixed h axis localName
  have hreached (r : Place) :
      (do keepAll env (← env.candidates axis (.name ⟨some p, localName⟩) r) []) =
        (pure ((onAxis r axis).filter passes) : Evaluated (List Place)) := by
    rw [candidates, filterM_eq_ok fun q _ => hpasses q]
    rfl
  have hfollow : (Step.mk axis (.name ⟨some p, localName⟩) []).follow env places =
      .ok (Place.inDocumentOrder env.document
        (places.map fun r => (onAxis r axis).filter passes).flatten) := by
    rw [Step.follow]
    simp only [hreached, List.mapM_pure]
    rfl
  refine ⟨_, hfollow, fun q => ?_⟩
  rw [Place.mem_inDocumentOrder]
  refine and_congr_right fun _ => ?_
  simp only [List.mem_flatten, List.mem_map, ← hiff]
  constructor
  · rintro ⟨q', ⟨_, ⟨r, hr, rfl⟩, hq'⟩, hsame⟩
    obtain ⟨haxis, hpasses⟩ := List.mem_filter.mp hq'
    exact ⟨r, hr, q', haxis, hpasses, hsame⟩
  · rintro ⟨r, hr, q', haxis, hpasses, hsame⟩
    exact ⟨q', ⟨_, ⟨r, hr, rfl⟩, List.mem_filter.mpr ⟨haxis, hpasses⟩⟩, hsame⟩

/-- Without a namespace the first place to be tested crashes the evaluation. -/
theorem candidates_unbound (h : lastBinding? env.namespaces p = none) (r : Place) :
    env.candidates axis (.name ⟨some p, localName⟩) r =
      if (onAxis r axis).any (isPrincipal · axis) then
        .error (.crash (.message "No namespace for prefix"))
      else .ok [] := by
  have hpasses (q : Place) (hq : ¬ isPrincipal q axis = true) :
      env.passes axis q (.name ⟨some p, localName⟩) = .ok false := by
    rw [passes_unbound h, if_neg hq]
  have hcrashes (q : Place) (hq : isPrincipal q axis = true) :
      env.passes axis q (.name ⟨some p, localName⟩) =
        .error (.crash (.message "No namespace for prefix")) := by
    rw [passes_unbound h, if_pos hq]
  rw [candidates]
  split
  · next hany =>
    obtain ⟨q, hq, hkind⟩ := List.any_eq_true.mp hany
    refine filterM_eq_error (fun q _ => ?_) ⟨q, hq, hcrashes q hkind⟩
    by_cases hkind : isPrincipal q axis = true
    · exact .inr (hcrashes q hkind)
    · exact .inl ⟨false, hpasses q hkind⟩
  · next hnone =>
    have hkinds : ∀ q ∈ onAxis r axis, ¬ isPrincipal q axis = true :=
      fun q hq hkind => hnone (List.any_eq_true.mpr ⟨q, hq, hkind⟩)
    rw [filterM_eq_ok fun q hq => hpasses q (hkinds q hq)]
    exact congrArg Except.ok (List.filter_eq_nil_iff.mpr fun _ _ => Bool.false_ne_true)

theorem follow_unbound (h : lastBinding? env.namespaces p = none) {places : List Place}
    (hprincipal : ∃ r ∈ places, ∃ q ∈ onAxis r axis, isPrincipal q axis = true)
    (localName : Option String) :
    (Step.mk axis (.name ⟨some p, localName⟩) []).follow env places =
      .error (.crash (.message "No namespace for prefix")) := by
  obtain ⟨r, hr, hprincipal⟩ := hprincipal
  have hreached : (places.mapM fun r => do
      keepAll env (← env.candidates axis (.name ⟨some p, localName⟩) r) []) =
      .error (.crash (.message "No namespace for prefix")) := by
    simp only [candidates_unbound h]
    refine mapM_eq_error (fun r _ => ?_) ⟨r, hr, ?_⟩
    · split
      · exact .inr rfl
      · exact .inl ⟨[], rfl⟩
    · rw [if_pos (List.any_eq_true.mpr hprincipal)]
      rfl
  rw [Step.follow, hreached]
  rfl

theorem followSteps_append (steps more : List Step) (places : List Place) :
    followSteps env places (steps ++ more) =
      followSteps env places steps >>= fun reached => followSteps env reached more := by
  induction steps generalizing places with
  | nil => rfl
  | cons step steps ih =>
    rw [List.cons_append, followSteps, followSteps, bind_assoc]
    exact bind_congr fun reached => ih reached

theorem evaluate_path_append {focus : Focus} {start : Expr} {steps more : List Step}
    {places : List Place} (h : (Expr.path start steps).evaluate env focus = .ok (.nodeSet places)) :
    (Expr.path start (steps ++ more)).evaluate env focus =
      (followSteps env places more).map .nodeSet := by
  obtain ⟨v, hv, h⟩ := bind_eq_ok.mp h
  obtain ⟨first, hfirst, h⟩ := bind_eq_ok.mp h
  obtain ⟨reached, hreached, h⟩ := bind_eq_ok.mp h
  cases h
  rw [Expr.evaluate, hv]
  show (placesOf v >>= _) = _
  rw [hfirst]
  show (followSteps env first (steps ++ more) >>= _) = _
  rw [followSteps_append, hreached]
  show (followSteps env places more >>= _) = _
  cases followSteps env places more <;> rfl

end Steps

/-! ## Queries -/

/-- What an engine tells of an evaluation that is interrupted. -/
def asFailure : Interruption EvaluationError → Interruption EngineFailure
  | .failure e => .failure (.plain "XPathEvaluationError" e.message)
  | .crash payload => .crash payload

theorem Query.evaluate_eq (query : Query) (bindings : Bindings) (document : Xml.Document) :
    query.evaluate bindings document =
      ((Environment.mk bindings document).evaluate query.expr).mapError asFailure := by
  unfold Query.evaluate
  cases (Environment.mk bindings document).evaluate query.expr with
  | ok v => rfl
  | error i => cases i <;> rfl

section Queries

variable {bindings : Bindings} {document : Xml.Document} {declared : ResultType} {start : Expr}
  {steps : List Step} {places : List Place} {axis : Axis} {p uri : String}

/-- One more step leads from the places that a query selects to places named in the namespace. -/
theorem Query.exists_evaluate_step
    (h : Query.evaluate bindings ⟨.path start steps, declared⟩ document = .ok (.nodeSet places))
    (huri : lastBinding? (Environment.mk bindings document).namespaces p = some uri) (axis : Axis)
    (localName : Option String) :
    ∃ found, Query.evaluate bindings
        ⟨.path start (steps ++ [.mk axis (.name ⟨some p, localName⟩) []]), declared⟩ document =
          .ok (.nodeSet found) ∧
      ∀ q, q ∈ found ↔ q ∈ Place.ofDocument document ∧
        ∃ r ∈ places, ∃ q' ∈ onAxis r axis, q'.NamedIn axis uri localName ∧ q.same q' = true := by
  obtain ⟨found, hfollow, hmem⟩ := exists_follow_prefixed huri places axis localName
  refine ⟨found, ?_, hmem⟩
  rw [Query.evaluate_eq]
  dsimp only
  rw [Environment.evaluate, evaluate_path_append (evaluate_eq_ok h), followSteps, hfollow]
  rfl

theorem Query.evaluate_step_unbound
    (h : Query.evaluate bindings ⟨.path start steps, declared⟩ document = .ok (.nodeSet places))
    (hunbound : lastBinding? (Environment.mk bindings document).namespaces p = none)
    (hprincipal : ∃ r ∈ places, ∃ q ∈ onAxis r axis, isPrincipal q axis = true)
    (localName : Option String) :
    Query.evaluate bindings
      ⟨.path start (steps ++ [.mk axis (.name ⟨some p, localName⟩) []]), declared⟩ document =
        .error (.crash (.message "No namespace for prefix")) := by
  have hfollow := follow_unbound hunbound hprincipal localName
  rw [Query.evaluate_eq]
  dsimp only
  rw [Environment.evaluate, evaluate_path_append (evaluate_eq_ok h), followSteps, hfollow]
  rfl

end Queries

end XPathBench.XPath
