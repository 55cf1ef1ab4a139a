import Mathlib.Data.List.Forall2
import Mathlib.Data.List.TakeDrop
import Mathlib.Data.List.TakeWhile
import XPathBench.CommandLine.Run
import XPathBench.Proofs.Actions
import XPathBench.Proofs.Text.Runs
import XPathBench.Proofs.Text.Trims
import XPathBench.Proofs.XPath.Prefixes

/-!
# Bindings on the command line

An evaluation takes all of its bindings or none: if one of them is at fault, it complains of the
first one that is, and runs no query. Of bindings that give one name different values the last one
counts, and the order of bindings with different names does not matter.

* `Binding.WellFormed`, `Binding.Gives`: bindings without fault, and what they say
* `Binding.LastGives`: the last of some bindings that gives a name a value
* `EvalOptions.StandFor`: what references and prefixes stand for, wherever they stand in a query
* `EvalOptions.Denotes`: what queries with references and prefixes evaluate to
* `eval_by_bindings`: evaluations by their bindings
-/

namespace XPathBench.CommandLine

open XPath (Environment Expr Focus Place Query Step Value asFailure engine lastBinding?)

/-! ## Single bindings -/

namespace Binding

/-- The binding gives a name a value: the name stands before the first equals sign, with white space
around it perhaps, and the value is all that stands behind that sign. -/
def Gives (binding name value : String) : Prop :=
  ∃ front, binding.toList = front ++ '=' :: value.toList ∧ '=' ∉ front ∧
    Text.trimChars front = name.toList

/-- The binding has an equals sign, and more than white space before the first one. -/
def WellFormed (binding : String) : Prop :=
  ∃ front behind, binding.toList = front ++ '=' :: behind ∧ '=' ∉ front ∧
    ∃ c ∈ front, Text.isBlank c = false

/-- What is said of a binding at fault. -/
def complaint (option binding : String) : String :=
  if '=' ∈ binding.toList then s!"--{option} has an empty name in `{binding}`"
  else s!"--{option} expects NAME=VALUE, got `{binding}`"

variable {option binding name name' value value' : String}
  {front front' behind behind' t : List Char}

theorem splitAtEquals_append (h : '=' ∉ front) :
    splitAtEquals (front ++ '=' :: behind) = some (front, behind) := by
  have hfront : ∀ c ∈ front, (c != '=') = true := by
    intro c hc
    exact bne_iff_ne.mpr fun heq => h (heq ▸ hc)
  rw [splitAtEquals, List.span_eq_takeWhile_dropWhile, List.takeWhile_append_of_pos hfront,
    List.dropWhile_append_of_pos hfront]
  simp

theorem splitAtEquals_of_not_mem (h : '=' ∉ t) : splitAtEquals t = none := by
  have hdrop : t.dropWhile (· != '=') = [] := by
    apply List.dropWhile_eq_nil_iff.mpr
    intro c hc
    exact bne_iff_ne.mpr fun heq => h (heq ▸ hc)
  rw [splitAtEquals, List.span_eq_takeWhile_dropWhile, hdrop]

theorem trimChars_eq_nil_iff : Text.trimChars t = [] ↔ ∀ c ∈ t, Text.isBlank c = true := by
  unfold Text.trimChars Text.trimEndChars Text.trimStartChars
  rw [List.reverse_eq_nil_iff, List.dropWhile_eq_nil_iff]
  constructor
  · intro h
    apply List.dropWhile_eq_nil_iff.mp
    cases hrest : t.dropWhile Text.isBlank with
    | nil => rfl
    | cons c rest =>
      have hc : Text.isBlank c = false := Text.not_isBlank_of_trimStartChars hrest
      rw [h c (by simp [hrest])] at hc
      cases hc
  · intro h c hc
    exact h c ((List.dropWhile_sublist _).subset (List.mem_reverse.mp hc))

theorem exists_not_blank_iff :
    (∃ c ∈ t, Text.isBlank c = false) ↔ Text.trimChars t ≠ [] := by
  rw [ne_eq, trimChars_eq_nil_iff]
  simp

theorem Gives.unique (h : Gives binding name value) (h' : Gives binding name' value') :
    name = name' ∧ value = value' := by
  obtain ⟨front, htext, hfront, hname⟩ := h
  obtain ⟨front', htext', hfront', hname'⟩ := h'
  obtain ⟨rfl, hvalue⟩ := Text.append_cons_inj '=' hfront hfront' (htext.symm.trans htext')
  exact ⟨String.toList_injective (hname.symm.trans hname'), String.toList_injective hvalue⟩

/-- A binding is read if it is well-formed, as what it gives; else there is a complaint about it. -/
theorem parse_cases (option binding : String) :
    (WellFormed binding ∧ ∃ name value, Gives binding name value ∧
      parse option binding = .ok (name, value)) ∨
    (¬ WellFormed binding ∧ ∃ fault, parse option binding = .error fault ∧
      fault.message = complaint option binding) := by
  by_cases hsign : '=' ∈ binding.toList
  · obtain ⟨front, behind, htext, hfront⟩ := List.eq_append_cons_of_mem hsign
    cases hname : Text.trimChars front with
    | nil =>
      have hparse : parse option binding = .error (.blankName option binding) := by
        simp only [parse, htext, splitAtEquals_append hfront, hname]
      refine .inr ⟨?_, _, hparse, (if_pos hsign).symm⟩
      rintro ⟨front', behind', htext', hfront', hblank⟩
      obtain ⟨rfl, -⟩ := Text.append_cons_inj '=' hfront hfront' (htext.symm.trans htext')
      exact exists_not_blank_iff.mp hblank hname
    | cons c rest =>
      have hparse : parse option binding =
          .ok (String.ofList (c :: rest), String.ofList behind) := by
        simp only [parse, htext, splitAtEquals_append hfront, hname]
      refine .inl ⟨⟨front, behind, htext, hfront, ?_⟩, _, _, ⟨front, ?_, hfront, ?_⟩, hparse⟩
      · exact exists_not_blank_iff.mpr (hname ▸ List.cons_ne_nil c rest)
      · rw [htext, String.toList_ofList]
      · rw [hname, String.toList_ofList]
  · refine .inr ⟨?_, .noEquals option binding, ?_, (if_neg hsign).symm⟩
    · rintro ⟨front, behind, htext, -⟩
      exact hsign (htext ▸ List.mem_append_right front List.mem_cons_self)
    · simp only [parse, splitAtEquals_of_not_mem hsign]

theorem wellFormed_iff (option : String) :
    WellFormed binding ↔ ∃ name value, parse option binding = .ok (name, value) := by
  obtain ⟨hwell, name, value, -, hparse⟩ | ⟨hwell, fault, hparse, -⟩ := parse_cases option binding
  · exact iff_of_true hwell ⟨name, value, hparse⟩
  · apply iff_of_false hwell
    rintro ⟨name, value, h⟩
    exact nomatch hparse.symm.trans h

instance : DecidablePred WellFormed := fun binding =>
  decidable_of_iff ((parse "" binding).isOk = true) <| by
    rw [wellFormed_iff ""]
    constructor
    · intro h
      obtain ⟨⟨name, value⟩, hparse⟩ := exists_of_isOk h
      exact ⟨name, value, hparse⟩
    · rintro ⟨name, value, hparse⟩
      rw [hparse]
      rfl

theorem gives_of_parse (h : parse option binding = .ok (name, value)) :
    Gives binding name value := by
  obtain ⟨-, name', value', hgives, hparse⟩ | ⟨-, fault, hparse, -⟩ := parse_cases option binding
  · cases hparse.symm.trans h
    exact hgives
  · exact nomatch hparse.symm.trans h

/-! ## Lists of bindings -/

/-- The last of the bindings that give a name a value gives it this one. -/
def LastGives (bindings : List String) (name value : String) : Prop :=
  ∃ before b after, bindings = before ++ b :: after ∧ Gives b name value ∧
    ∀ c ∈ after, ∀ other, ¬ Gives c name other

/-- No binding gives the name a value. -/
def NoneGives (bindings : List String) (name : String) : Prop :=
  ∀ b ∈ bindings, ∀ value, ¬ Gives b name value

/-- No two of the bindings give one name values. -/
def DifferentNames (bindings : List String) : Prop :=
  bindings.Pairwise fun b c => ∀ name value other, Gives b name value → ¬ Gives c name other

/-- The message is about the first of the bindings that is at fault. -/
def FirstFault (option : String) (bindings : List String) (message : String) : Prop :=
  ∃ before b after, bindings = before ++ b :: after ∧ (∀ c ∈ before, WellFormed c) ∧
    ¬ WellFormed b ∧ message = complaint option b

variable {bindings bindings' : List String} {message : String}

theorem lastGives_cons : LastGives (binding :: bindings) name value ↔
    LastGives bindings name value ∨ Gives binding name value ∧ NoneGives bindings name := by
  constructor
  · rintro ⟨before, b, after, htext, hgives, hafter⟩
    cases before with
    | nil =>
      cases htext
      exact .inr ⟨hgives, hafter⟩
    | cons c before =>
      cases htext
      exact .inl ⟨before, b, after, rfl, hgives, hafter⟩
  · rintro (⟨before, b, after, rfl, hgives, hafter⟩ | ⟨hgives, hafter⟩)
    · exact ⟨binding :: before, b, after, rfl, hgives, hafter⟩
    · exact ⟨[], binding, bindings, rfl, hgives, hafter⟩

theorem noneGives_iff : NoneGives bindings name ↔ ∀ value, ¬ LastGives bindings name value := by
  constructor
  · rintro h value ⟨before, b, after, rfl, hgives, -⟩
    exact h b (List.mem_append_right before List.mem_cons_self) value hgives
  · intro h
    induction bindings with
    | nil => exact nofun
    | cons b bindings ih =>
      have hrest : NoneGives bindings name :=
        ih fun value hlast => h value (lastGives_cons.mpr (.inl hlast))
      apply List.forall_mem_cons.mpr ⟨?_, hrest⟩
      intro value hgives
      exact h value (lastGives_cons.mpr (.inr ⟨hgives, hrest⟩))

theorem lastGives_iff_of_differentNames (h : DifferentNames bindings) :
    LastGives bindings name value ↔ ∃ b ∈ bindings, Gives b name value := by
  constructor
  · rintro ⟨before, b, after, rfl, hgives, -⟩
    exact ⟨b, List.mem_append_right before List.mem_cons_self, hgives⟩
  · rintro ⟨b, hb, hgives⟩
    obtain ⟨before, after, rfl⟩ := List.append_of_mem hb
    refine ⟨before, b, after, rfl, hgives, fun c hc other => ?_⟩
    have hbehind := List.pairwise_cons.mp (List.pairwise_append.mp h).2.1
    exact hbehind.1 c hc name value other hgives

theorem DifferentNames.perm (h : DifferentNames bindings) (hperm : bindings.Perm bindings') :
    DifferentNames bindings' := by
  apply List.Pairwise.perm h hperm
  intro b c hbc name value other hc hb
  exact hbc name other value hb hc

/-- The last bindings of names do not depend on the order of bindings with different names. -/
theorem lastGives_perm (h : DifferentNames bindings) (hperm : bindings.Perm bindings') :
    LastGives bindings' name value ↔ LastGives bindings name value := by
  rw [lastGives_iff_of_differentNames h, lastGives_iff_of_differentNames (h.perm hperm)]
  simp only [hperm.mem_iff]

theorem lastBinding?_cons (pairs : List (String × String)) :
    lastBinding? ((name, value) :: pairs) name' =
      (lastBinding? pairs name').or (if name' = name then some value else none) := by
  unfold lastBinding?
  rw [List.reverse_cons, List.lookup_append, List.lookup_cons]
  by_cases hname : name' = name
  · rw [if_pos hname, beq_iff_eq.mpr hname]
  · rw [if_neg hname, beq_false_of_ne hname]
    rfl

theorem lastBinding?_eq_none_iff {pairs : List (String × String)}
    (hlast : ∀ value, lastBinding? pairs name = some value ↔ LastGives bindings name value) :
    lastBinding? pairs name = none ↔ NoneGives bindings name := by
  rw [Option.eq_none_iff_forall_ne_some, noneGives_iff]
  exact forall_congr' fun value => not_congr (hlast value)

/-- One more binding in front counts for its own name only, and only if no other one gives it. -/
theorem lastBinding?_cons_iff {pairs : List (String × String)} (hgives : Gives binding name value)
    (hlast : ∀ name value, lastBinding? pairs name = some value ↔ LastGives bindings name value) :
    lastBinding? ((name, value) :: pairs) name' = some value' ↔
      LastGives (binding :: bindings) name' value' := by
  have hfirst : (if name' = name then some value else none) = some value' ↔
      Gives binding name' value' := by
    rw [Option.ite_none_right_eq_some, Option.some.injEq]
    constructor
    · rintro ⟨rfl, rfl⟩
      exact hgives
    · intro h
      exact h.unique hgives |>.imp id Eq.symm
  rw [lastBinding?_cons, Option.or_eq_some_iff, lastGives_cons, hlast,
    lastBinding?_eq_none_iff (hlast name'), hfirst, and_comm (a := NoneGives bindings name')]

/-- All bindings are read if all are well-formed, and names are looked up in what the last of them
give; else there is the complaint about the first one at fault. -/
theorem parseAll_cases (option : String) (bindings : List String) :
    ((∀ b ∈ bindings, WellFormed b) ∧ ∃ pairs, parseAll option bindings = .ok pairs ∧
      ∀ name value, lastBinding? pairs name = some value ↔ LastGives bindings name value) ∨
    ∃ fault, parseAll option bindings = .error fault ∧
      FirstFault option bindings fault.message := by
  induction bindings with
  | nil =>
    refine .inl ⟨nofun, [], rfl, fun name value => iff_of_false nofun ?_⟩
    rintro ⟨before, b, after, h, -⟩
    exact absurd h (List.append_ne_nil_of_right_ne_nil _ (List.cons_ne_nil _ _)).symm
  | cons b bindings ih =>
    have hstep : parseAll option (b :: bindings) = (do
        let pair ← parse option b
        let pairs ← parseAll option bindings
        return pair :: pairs) := List.mapM_cons
    rw [hstep]
    obtain ⟨hb, name, value, hgives, hparse⟩ | ⟨hb, fault, hparse, hmessage⟩ :=
      parse_cases option b
    · rw [hparse]
      obtain ⟨hwell, pairs, hpairs, hlast⟩ | ⟨fault, hfault, before, c, after, rfl, hbefore, hc⟩ :=
        ih
      · rw [hpairs]
        exact .inl ⟨List.forall_mem_cons.mpr ⟨hb, hwell⟩, _, rfl,
          fun _ _ => lastBinding?_cons_iff hgives hlast⟩
      · rw [hfault]
        exact .inr ⟨fault, rfl, b :: before, c, after, rfl,
          List.forall_mem_cons.mpr ⟨hb, hbefore⟩, hc⟩
    · rw [hparse]
      exact .inr ⟨fault, rfl, [], b, bindings, rfl, nofun, hb, hmessage⟩

theorem FirstFault.not_forall_wellFormed (h : FirstFault option bindings message) :
    ¬ ∀ b ∈ bindings, WellFormed b := by
  obtain ⟨before, b, after, rfl, -, hb, -⟩ := h
  exact fun hwell => hb (hwell b (List.mem_append_right before List.mem_cons_self))

end Binding

/-! ## Evaluations -/

namespace EvalOptions

/-- What references and prefixes stand for, wherever they stand in a query of an evaluation. -/
structure StandFor (o : EvalOptions) (env : Environment) : Prop where
  reference {name value : String} : Binding.LastGives o.vars name value → ∀ focus,
    (Expr.variable ⟨none, name⟩).evaluate env focus = .ok (.string value)
  missing {name : String} : Binding.NoneGives o.vars name → ∀ focus,
    (Expr.variable ⟨none, name⟩).evaluate env focus =
      .error (.failure (.unknownVariable ⟨none, name⟩))
  /-- In the name of a function or variable a prefix stands for its namespace. -/
  resolved {p uri : String} : Binding.LastGives o.namespaces p uri → ∀ localName,
    env.resolve ⟨some p, localName⟩ = .ok (some uri)
  /-- In a name test a prefix stands for its namespace, and any local name may follow if none is
  asked for. -/
  tested {p uri : String} : Binding.LastGives o.namespaces p uri → ∀ (place : Place) localName,
    ∃ passes, env.passesNameTest place ⟨some p, localName⟩ = .ok passes ∧
      (passes = true ↔ ∃ found, place.expandedName? = some (some uri, found) ∧
        ∀ name ∈ localName, name = found)
  unbound {p : String} : Binding.NoneGives o.namespaces p →
    (∀ localName, env.resolve ⟨some p, localName⟩ = .error (.failure (.unknownPrefix p))) ∧
    ∀ place localName, env.passesNameTest place ⟨some p, localName⟩ =
      .error (.crash (.message "No namespace for prefix"))

/-- What the queries of an evaluation evaluate to with its bindings. -/
structure Denotes (o : EvalOptions) (bindings : XPath.Bindings) : Prop where
  /-- A query has the value of its expression at the root. -/
  evaluates (query : Query) (document : Xml.Document) : query.evaluate bindings document =
    (query.expr.evaluate ⟨bindings, document⟩ ⟨.root document, 1, 1⟩).mapError asFailure
  standFor (document : Xml.Document) : o.StandFor ⟨bindings, document⟩
  reference {name value : String} : Binding.LastGives o.vars name value → ∀ declared document,
    Query.evaluate bindings ⟨.variable ⟨none, name⟩, declared⟩ document = .ok (.string value)
  missing {name : String} : Binding.NoneGives o.vars name → ∀ declared document,
    Query.evaluate bindings ⟨.variable ⟨none, name⟩, declared⟩ document =
      .error (.failure (.plain "XPathEvaluationError"
        ("unknown variable " ++ XPath.describeName ⟨none, name⟩)))
  /-- References may be replaced by literals throughout, and need no variables then. -/
  filled : ∃ texts : String → Option String,
    (∀ name value, texts name = some value ↔ Binding.LastGives o.vars name value) ∧
    ∀ (query : Query) document, query.evaluate bindings document =
      Query.evaluate ⟨bindings.namespaces, []⟩ ⟨query.expr.fill texts, query.declared⟩ document
  /-- A step with a prefix leads to the places on its axis whose names are in the namespace. -/
  selected {p uri : String} : Binding.LastGives o.namespaces p uri →
    ∀ {start steps declared document places},
      Query.evaluate bindings ⟨.path start steps, declared⟩ document = .ok (.nodeSet places) →
      ∀ axis localName, ∃ found, Query.evaluate bindings ⟨.path start (steps ++
          [.mk axis (.name ⟨some p, localName⟩) []]), declared⟩ document = .ok (.nodeSet found) ∧
        ∀ q, q ∈ found ↔ q ∈ Place.ofDocument document ∧ ∃ r ∈ places,
          ∃ q' ∈ Environment.onAxis r axis, q'.NamedIn axis uri localName ∧ q.same q' = true
  /-- Without a namespace for the prefix the step crashes if there is a place to be tested. -/
  unbound {p : String} : Binding.NoneGives o.namespaces p →
    ∀ {start steps declared document places axis},
      Query.evaluate bindings ⟨.path start steps, declared⟩ document = .ok (.nodeSet places) →
      (∃ r ∈ places, ∃ q ∈ Environment.onAxis r axis, Environment.isPrincipal q axis = true) →
      ∀ localName, Query.evaluate bindings ⟨.path start (steps ++
          [.mk axis (.name ⟨some p, localName⟩) []]), declared⟩ document =
        .error (.crash (.message "No namespace for prefix"))

/-- The message is about the first binding at fault, of a prefix if there is one of those. -/
def FirstFault (o : EvalOptions) (message : String) : Prop :=
  Binding.FirstFault "namespace" o.namespaces message ∨
    (∀ b ∈ o.namespaces, Binding.WellFormed b) ∧ Binding.FirstFault "var" o.vars message

/-- The bindings tell of each prefix and each variable what the last binding of it gives. -/
structure Tells (o : EvalOptions) (bindings : XPath.Bindings) : Prop where
  namespaces (p uri : String) :
    lastBinding? bindings.namespaces p = some uri ↔ Binding.LastGives o.namespaces p uri
  vars (name value : String) :
    lastBinding? bindings.vars name = some value ↔ Binding.LastGives o.vars name value

variable {o o' : EvalOptions} {bindings bindings' : XPath.Bindings} {message : String}

theorem FirstFault.not_forall_wellFormed (h : o.FirstFault message) :
    ¬ ∀ b ∈ o.namespaces ++ o.vars, Binding.WellFormed b := by
  rw [List.forall_mem_append]
  obtain h | ⟨-, h⟩ := h
  · exact fun hwell => h.not_forall_wellFormed hwell.1
  · exact fun hwell => h.not_forall_wellFormed hwell.2

theorem Tells.standFor (h : o.Tells bindings) (document : Xml.Document) :
    o.StandFor ⟨bindings, document⟩ where
  reference {name value} hlast focus := by
    show (Environment.mk bindings document).valueOf ⟨none, name⟩ = _
    rw [Environment.valueOf_unprefixed, (h.vars name value).mpr hlast]
  missing {name} hnone focus := by
    show (Environment.mk bindings document).valueOf ⟨none, name⟩ = _
    rw [Environment.valueOf_unprefixed,
      (Binding.lastBinding?_eq_none_iff (h.vars name)).mpr hnone]
    rfl
  resolved {p uri} hlast localName := by
    rw [Environment.resolve_prefixed, (h.namespaces p uri).mpr hlast]
  tested {p uri} hlast := Environment.passesNameTest_prefixed ((h.namespaces p uri).mpr hlast)
  unbound {p} hnone := by
    have hunbound := (Binding.lastBinding?_eq_none_iff (h.namespaces p)).mpr hnone
    refine ⟨fun localName => ?_, Environment.passesNameTest_unbound hunbound⟩
    rw [Environment.resolve_prefixed, hunbound]
    rfl

theorem Tells.denotes (h : o.Tells bindings) : o.Denotes bindings where
  evaluates query document := query.evaluate_eq bindings document
  standFor := h.standFor
  reference hlast declared document := by
    rw [Query.evaluate_eq]
    exact congrArg _ ((h.standFor document).reference hlast _)
  missing hnone declared document := by
    rw [Query.evaluate_eq]
    exact congrArg _ ((h.standFor document).missing hnone _)
  filled := by
    refine ⟨lastBinding? bindings.vars, h.vars, fun query document => ?_⟩
    rw [Query.evaluate_eq, Query.evaluate_eq]
    exact congrArg _ (XPath.evaluate_fill_vars bindings document _ query.expr).symm
  selected {p uri} hlast _ _ _ _ _ hplaces :=
    Query.exists_evaluate_step hplaces ((h.namespaces p uri).mpr hlast)
  unbound {p} hnone _ _ _ _ _ _ hplaces :=
    Query.evaluate_step_unbound hplaces
      ((Binding.lastBinding?_eq_none_iff (h.namespaces p)).mpr hnone)

theorem bindings_cases (o : EvalOptions) :
    ((∀ b ∈ o.namespaces ++ o.vars, Binding.WellFormed b) ∧
      ∃ bindings, o.bindings = .ok bindings ∧ o.Tells bindings) ∨
    ∃ fault, o.bindings = .error fault ∧ o.FirstFault fault.message := by
  unfold EvalOptions.bindings
  obtain ⟨hnamespaces, namespaces, heq, hlast⟩ | ⟨fault, heq, hfault⟩ :=
    Binding.parseAll_cases Setting.prefixBinding.name o.namespaces
  · rw [heq]
    obtain ⟨hvars, vars, heq', hlast'⟩ | ⟨fault, heq', hfault⟩ :=
      Binding.parseAll_cases Setting.variableBinding.name o.vars
    · rw [heq']
      exact .inl ⟨List.forall_mem_append.mpr ⟨hnamespaces, hvars⟩, _, rfl, hlast, hlast'⟩
    · rw [heq']
      exact .inr ⟨fault, rfl, .inr ⟨hnamespaces, hfault⟩⟩
  · rw [heq]
    exact .inr ⟨fault, rfl, .inl hfault⟩

theorem exists_bindings (h : ∀ b ∈ o.namespaces ++ o.vars, Binding.WellFormed b) :
    ∃ bindings, o.bindings = .ok bindings ∧ o.Tells bindings := by
  obtain ⟨-, hbindings⟩ | ⟨fault, -, hfault⟩ := o.bindings_cases
  · exact hbindings
  · exact absurd h hfault.not_forall_wellFormed

theorem exists_fault (h : ¬ ∀ b ∈ o.namespaces ++ o.vars, Binding.WellFormed b) :
    ∃ fault, o.bindings = .error fault ∧ o.FirstFault fault.message := by
  obtain ⟨hwell, -⟩ | hfault := o.bindings_cases
  · exact absurd hwell h
  · exact hfault

end EvalOptions

variable {m : Type → Type} [Monad m] {inputs : Inputs m} {clock : m Duration} {color : Bool}
  {captures : Captures} {o o' : EvalOptions} {bindings bindings' : XPath.Bindings}

theorem eval_of_bindings (h : o.bindings = .ok bindings) :
    (Command.eval o).run inputs clock color captures = do
      let document ← o.source.load inputs
      let pipeline : Pipeline m _ _ := ⟨engine bindings captures.eval, spaces o.indent, clock⟩
      return evalOutput o.format (color && !o.noColor) (← pipeline.run document o.query) := by
  unfold Command.run
  simp only [h]

theorem eval_of_fault {fault : Binding.Fault} (h : o.bindings = .error fault) :
    (Command.eval o).run inputs clock color captures = (do
      let _ ← o.source.load inputs
      throw (.badBinding fault)) := by
  unfold Command.run
  simp only [h]

theorem engine_eq_of_tells (h : o.Tells bindings) (h' : o'.Tells bindings')
    (hnamespaces : ∀ p uri, Binding.LastGives o'.namespaces p uri ↔
      Binding.LastGives o.namespaces p uri)
    (hvars : ∀ name value, Binding.LastGives o'.vars name value ↔
      Binding.LastGives o.vars name value) (backtraces : Backtraces) :
    (engine bindings' backtraces : Engine m Xml.Document Query) = engine bindings backtraces := by
  refine XPath.engine_congr ?_ ?_ backtraces
  · intro p
    apply Option.ext
    intro uri
    rw [h.namespaces, h'.namespaces, hnamespaces]
  · intro name
    apply Option.ext
    intro value
    rw [h.vars, h'.vars, hvars]

/-- Evaluations by their bindings. If all bindings are well-formed, the query runs with an engine
that tells what it evaluates to when each reference and each prefix stands for what the last binding
of its name gives. Else the evaluation ends behind loading with a complaint about the first binding
at fault. Bindings with different names may come in any order. -/
theorem eval_by_bindings (inputs : Inputs m) (clock : m Duration) (color : Bool)
    (captures : Captures) (o : EvalOptions) :
    let eval (o : EvalOptions) := (Command.eval o).run inputs clock color captures
    ((∀ b ∈ o.namespaces ++ o.vars, Binding.WellFormed b) →
      ∃ bindings, o.Denotes bindings ∧
        (∀ query document, (engine bindings captures.eval : Engine m _ _).evaluate query document =
          pure (((query.evaluate bindings document).map (Value.raw document)).mapError
            (.raised (captures.eval .evaluating)))) ∧
        eval o = do
          let document ← o.source.load inputs
          let pipeline : Pipeline m _ _ := ⟨engine bindings captures.eval, spaces o.indent, clock⟩
          return evalOutput o.format (color && !o.noColor) (← pipeline.run document o.query)) ∧
    ((¬ ∀ b ∈ o.namespaces ++ o.vars, Binding.WellFormed b) →
      ∃ fault, o.FirstFault (CommandError.badBinding fault).message ∧ eval o = do
        let _ ← o.source.load inputs
        throw (.badBinding fault)) ∧
    ∀ namespaces vars, (∀ b ∈ o.namespaces ++ o.vars, Binding.WellFormed b) →
      Binding.DifferentNames o.namespaces → Binding.DifferentNames o.vars →
      o.namespaces.Perm namespaces → o.vars.Perm vars →
      eval { o with namespaces, vars } = eval o := by
  intro eval
  refine ⟨fun hwell => ?_, fun hfault => ?_, ?_⟩
  · obtain ⟨bindings, hbindings, htells⟩ := EvalOptions.exists_bindings hwell
    exact ⟨bindings, htells.denotes, fun _ _ => rfl, eval_of_bindings hbindings⟩
  · obtain ⟨fault, hbindings, hmessage⟩ := EvalOptions.exists_fault hfault
    exact ⟨fault, hmessage, eval_of_fault hbindings⟩
  · intro namespaces vars hwell hnamespaces hvars hpermNamespaces hpermVars
    have hwell' : ∀ b ∈ namespaces ++ vars, Binding.WellFormed b := by
      intro b hb
      exact hwell b ((hpermNamespaces.append hpermVars).mem_iff.mpr hb)
    obtain ⟨bindings, hbindings, htells⟩ := EvalOptions.exists_bindings hwell
    obtain ⟨bindings', hbindings', htells'⟩ :=
      EvalOptions.exists_bindings (o := { o with namespaces, vars }) hwell'
    have hengine := engine_eq_of_tells (m := m) htells htells'
      (fun _ _ => Binding.lastGives_perm hnamespaces hpermNamespaces)
      (fun _ _ => Binding.lastGives_perm hvars hpermVars) captures.eval
    show (Command.eval _).run inputs clock color captures =
      (Command.eval o).run inputs clock color captures
    rw [eval_of_bindings hbindings, eval_of_bindings hbindings', hengine]

/-- Of two bindings of one name the later one counts, whatever blanks stand around its name. -/
theorem eval_by_bindings_again :
    let o : EvalOptions :=
      ⟨"$n", ⟨.inline "<a/>", false⟩, ["p=urn:p"], ["n=1", " n = a=b"], 1, .text, true⟩
    let faulty : EvalOptions := { o with vars := ["n=1", " =2", "x"] }
    let eval (o : EvalOptions) : ExceptT CommandError Id Output :=
      (Command.eval o).run ⟨fun _ => none, none⟩ ⟨0, 0⟩ false
    (∃ bindings, (∀ declared document, Query.evaluate bindings ⟨.variable ⟨none, "n"⟩, declared⟩
        document = .ok (.string " a=b")) ∧
      eval o = do
        let document ← o.source.load ⟨fun _ => none, none⟩
        let pipeline : Pipeline Id _ _ := ⟨engine bindings, spaces 1, ⟨0, 0⟩⟩
        return evalOutput .text false (← pipeline.run document "$n")) ∧
    eval o = pure ⟨"[ResultType.Any -> String]: \x7bLength=4\x7d\n\n\" a=b\"\n\n" ++
      "XML parse time     00:00:00.0000000\nXPath compile time 00:00:00.0000000\n" ++
      "Evaluation time    00:00:00.0000000\nEnd of line.", 0⟩ ∧
    (∃ fault : Binding.Fault, faulty.FirstFault fault.message ∧
      eval faulty = throw (.badBinding fault)) ∧
    ∀ vars, ["n=1", "m=2"].Perm vars →
      eval { o with vars } = eval { o with vars := ["n=1", "m=2"] } := by
  intro o faulty eval
  refine ⟨?_, ?_, ?_, ?_⟩
  · obtain ⟨bindings, hdenotes, -, heval⟩ :=
      (eval_by_bindings (m := Id) ⟨fun _ => none, none⟩ ⟨0, 0⟩ false .none o).1 (by decide +kernel)
    refine ⟨bindings, hdenotes.reference ⟨["n=1"], _, [], rfl, ?_, nofun⟩, heval⟩
    exact ⟨" n ".toList, by decide +kernel, by decide +kernel, by decide +kernel⟩
  · exact eq_ok_of_toOption (by decide +kernel)
  · exact (eval_by_bindings (m := Id) ⟨fun _ => none, none⟩ ⟨0, 0⟩ false .none faulty).2.1
      (by decide +kernel)
  · intro vars hperm
    have hdifferent : Binding.DifferentNames ["n=1", "m=2"] := by
      apply List.pairwise_pair.mpr
      intro name value other hn hm
      have hparsen : Binding.parse "var" "n=1" = .ok ("n", "1") := by decide +kernel
      have hparsem : Binding.parse "var" "m=2" = .ok ("m", "2") := by decide +kernel
      obtain ⟨rfl, -⟩ := hn.unique (Binding.gives_of_parse hparsen)
      exact absurd (hm.unique (Binding.gives_of_parse hparsem)).1 (by decide)
    exact (eval_by_bindings (m := Id) ⟨fun _ => none, none⟩ ⟨0, 0⟩ false .none
      { o with vars := ["n=1", "m=2"] }).2.2 o.namespaces vars (by decide +kernel)
      (List.pairwise_singleton _ _) hdifferent (.refl _) hperm

end XPathBench.CommandLine
