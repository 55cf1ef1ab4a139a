/-!
# What actions return

* `bind_eq_ok`: what goes on behind an action that may fail
* `Returns`: all that an action of a monad may return is as told
* `Yields`: what an action returns, if it has no effects
* `resultFrom`: what an action comes to in a world
-/

namespace XPathBench

variable {α β ε : Type}

/-! ## Actions that may fail -/

theorem bind_eq_ok {x : Except ε α} {f : α → Except ε β} {b : β} :
    x >>= f = .ok b ↔ ∃ a, x = .ok a ∧ f a = .ok b := by
  cases x with
  | error e => exact ⟨nofun, fun ⟨_, h, _⟩ => nomatch h⟩
  | ok a => exact ⟨fun h => ⟨a, rfl, h⟩, fun ⟨_, h, h'⟩ => Except.ok.inj h ▸ h'⟩

theorem exists_of_map {f : α → β} {x : Except ε α} {b : β} (h : x.map f = .ok b) :
    ∃ a, x = .ok a ∧ b = f a := by
  cases x with
  | error e => cases h
  | ok a =>
    cases h
    exact ⟨a, rfl, rfl⟩

theorem exists_of_isOk {x : Except ε α} (h : x.isOk = true) : ∃ a, x = .ok a := by
  cases x with
  | error e => cases h
  | ok a => exact ⟨a, rfl⟩

theorem eq_ok_of_toOption {x : Except ε α} {a : α} (h : x.toOption = some a) : x = .ok a := by
  cases x with
  | error e => cases h
  | ok a =>
    cases h
    rfl

/-! ## Actions of a monad -/

variable {m : Type → Type} [Monad m] [LawfulMonad m] {p : α → Prop} {q : β → Prop}

/-- All that the action may return is as `p` tells: the action is one of values that are so. -/
def Returns {m : Type → Type} [Functor m] (x : m α) (p : α → Prop) : Prop :=
  ∃ y : m (Subtype p), Subtype.val <$> y = x

theorem returns_id_iff {x : Id α} : @Returns α Id Id.instMonad.toFunctor x p ↔ p x := by
  constructor
  · rintro ⟨y, rfl⟩
    exact y.2
  · intro h
    exact ⟨(⟨x, h⟩ : Subtype p), rfl⟩

theorem returns_pure {a : α} (h : p a) : Returns (pure a : m α) p :=
  ⟨pure ⟨a, h⟩, map_pure _ _⟩

theorem returns_true (x : m α) : Returns x fun _ => True :=
  ⟨(fun a => ⟨a, trivial⟩) <$> x, by rw [← comp_map]; exact id_map x⟩

theorem Returns.mono {x : m α} {p' : α → Prop} (h : Returns x p) (hp : ∀ a, p a → p' a) :
    Returns x p' := by
  obtain ⟨y, rfl⟩ := h
  exact ⟨(fun a => ⟨a.1, hp a.1 a.2⟩) <$> y, by rw [← comp_map]; rfl⟩

theorem Returns.bind {x : m α} {f : α → m β} (h : Returns x p) (hf : ∀ a, p a → Returns (f a) q) :
    Returns (x >>= f) q := by
  obtain ⟨y, rfl⟩ := h
  refine ⟨y >>= fun a => (hf a.1 a.2).choose, ?_⟩
  rw [map_bind, bind_map_left]
  exact bind_congr fun a => (hf a.1 a.2).choose_spec

theorem returns_imp {x : m α} {c : Prop} (h : c → Returns x p) : Returns x fun a => c → p a := by
  by_cases hc : c
  · exact (h hc).mono fun _ ha _ => ha
  · exact (returns_true x).mono fun _ _ hc' => absurd hc' hc

/-- If the action has no effects, it is the one that returns the value. -/
def Yields {m : Type → Type} [Pure m] (x : m α) (a : α) : Prop := ∀ b, x = pure b → x = pure a

theorem returns_yields (x : m α) : Returns x (Yields x) := by
  by_cases h : ∃ b, x = pure b
  · obtain ⟨b, rfl⟩ := h
    exact returns_pure fun _ _ => rfl
  · exact (returns_true x).mono fun a _ b hb => absurd ⟨b, hb⟩ h

/-- An action that may fail goes on only if it did not. -/
theorem returns_run_bind {x : ExceptT ε m α} {f : α → ExceptT ε m β} {p : Except ε α → Prop}
    {q : Except ε β → Prop} (h : Returns x.run p) (herror : ∀ e, p (.error e) → q (.error e))
    (hok : ∀ a, p (.ok a) → Returns (f a).run q) : Returns (x >>= f).run q := by
  rw [ExceptT.run_bind]
  refine h.bind fun result hresult => ?_
  cases result with
  | ok a => exact hok a hresult
  | error e => exact returns_pure (herror e hresult)

theorem returns_liftM {x : m α} (h : Returns x p) :
    Returns (liftM x : ExceptT ε m α).run fun result => ∃ a, result = .ok a ∧ p a := by
  show Returns (Except.ok <$> x) _
  rw [map_eq_pure_bind]
  exact h.bind fun a ha => returns_pure ⟨a, rfl, ha⟩

/-! ## Actions in a world -/

variable {σ : Type}

/-- What an action comes to when it is carried out in a world. -/
def resultFrom (x : ExceptT ε (StateM σ) α) (world : σ) : Except ε α := (x.run.run world).1

theorem resultFrom_bind_error {x : ExceptT ε (StateM σ) α} {world : σ} {e : ε}
    (h : resultFrom x world = .error e) (f : α → ExceptT ε (StateM σ) β) :
    resultFrom (x >>= f) world = .error e := by
  unfold resultFrom at h ⊢
  rw [ExceptT.run_bind, StateT.run_bind]
  generalize x.run.run world = r at h
  obtain ⟨result, later⟩ := r
  obtain rfl : result = .error e := h
  rfl

/-- Whatever goes on behind an action goes on in the world that the action leaves. -/
theorem exists_forall_resultFrom_bind (β : Type) {x : ExceptT ε (StateM σ) α} {world : σ} {a : α}
    (h : resultFrom x world = .ok a) : ∃ later, ∀ f : α → ExceptT ε (StateM σ) β,
      resultFrom (x >>= f) world = resultFrom (f a) later := by
  unfold resultFrom at h ⊢
  refine ⟨(x.run.run world).2, fun f => ?_⟩
  rw [ExceptT.run_bind, StateT.run_bind]
  generalize x.run.run world = r at h
  obtain ⟨result, later⟩ := r
  obtain rfl : result = .ok a := h
  rfl

/-- An action goes on in the world that its first part leaves. -/
theorem resultFrom_bind {x : ExceptT ε (StateM σ) α} {world : σ} {a : α}
    (h : resultFrom x world = .ok a) (f : α → ExceptT ε (StateM σ) β) :
    ∃ later, resultFrom (x >>= f) world = resultFrom (f a) later := by
  obtain ⟨later, hlater⟩ := exists_forall_resultFrom_bind β h
  exact ⟨later, hlater f⟩

/-- In one world an action returns one value to whatever goes on behind it. -/
theorem Returns.exists_forall_resultFrom_bind (ε β : Type) {x : StateM σ α} (h : Returns x p)
    (world : σ) :
    ∃ a later, p a ∧ ∀ f : α → ExceptT ε (StateM σ) β,
      resultFrom (liftM x >>= f) world = resultFrom (f a) later := by
  obtain ⟨y, rfl⟩ := h
  exact ⟨(y.run world).1.1, (y.run world).2, (y.run world).1.2, fun _ => rfl⟩

theorem Returns.resultFrom_bind {x : StateM σ α} (h : Returns x p)
    (f : α → ExceptT ε (StateM σ) β) (world : σ) :
    ∃ a later, p a ∧ resultFrom (liftM x >>= f) world = resultFrom (f a) later := by
  obtain ⟨a, later, ha, hlater⟩ := h.exists_forall_resultFrom_bind ε β world
  exact ⟨a, later, ha, hlater f⟩

end XPathBench
