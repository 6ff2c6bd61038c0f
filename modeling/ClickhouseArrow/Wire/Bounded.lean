import ClickhouseArrow.Wire.Reader

/-!
# Computations that may not end

A `Bounded` computation is run with a bound on the turns of its loops.  A bound that is too
small gives nothing; a larger one gives the same result as any bound that was large enough.  So
the computation returns a result when some bound gives it, and never ends when no bound does.
`loop` repeats a body until the body ends the loop.
-/

namespace Wire

/-- A computation under a bound, which keeps its result under a larger bound. -/
@[ext] structure Bounded (ε α : Type) where
  run : Nat → Option (Outcome ε α)
  mono : ∀ {m n r}, m ≤ n → run m = some r → run n = some r

namespace Bounded

variable {ε α β σ : Type}

/-- A computation without loops. -/
def ofOutcome (o : Outcome ε α) : Bounded ε α where
  run _ := some o
  mono _ h := h

/-- What a continuation makes of the result under a bound. -/
def bindRun (c : Option (Outcome ε α)) (f : α → Option (Outcome ε β)) : Option (Outcome ε β) :=
  match c with
  | none => none
  | some (.error e) => some (.error e)
  | some (.ok a) => f a

theorem bindRun_eq_some {c : Option (Outcome ε α)} {f : α → Option (Outcome ε β)}
    {r : Outcome ε β} :
    bindRun c f = some r ↔
      (∃ a, c = some (.ok a) ∧ f a = some r) ∨ ∃ e, c = some (.error e) ∧ r = .error e := by
  rcases c with _ | e | a
  · simp [bindRun]
  · simp [bindRun, eq_comm]
  · simp [bindRun]

theorem bindRun_mono {c c' : Option (Outcome ε α)} {f f' : α → Option (Outcome ε β)}
    (hc : ∀ {r}, c = some r → c' = some r) (hf : ∀ {a r}, f a = some r → f' a = some r)
    {r : Outcome ε β} (h : bindRun c f = some r) : bindRun c' f' = some r := by
  rw [bindRun_eq_some] at h ⊢
  rcases h with ⟨a, ha, hr⟩ | ⟨e, he, hr⟩
  · exact .inl ⟨a, hc ha, hf hr⟩
  · exact .inr ⟨e, hc he, hr⟩

protected def bind (c : Bounded ε α) (f : α → Bounded ε β) : Bounded ε β where
  run n := bindRun (c.run n) fun a => (f a).run n
  mono hle := bindRun_mono (c.mono hle) (fun {a _} => (f a).mono hle)

instance : Monad (Bounded ε) where
  pure a := ofOutcome (.ok a)
  bind := Bounded.bind

theorem bindRun_assoc {γ : Type} (c : Option (Outcome ε α)) (f : α → Option (Outcome ε β))
    (g : β → Option (Outcome ε γ)) :
    bindRun (bindRun c f) g = bindRun c fun a => bindRun (f a) g := by
  rcases c with _ | e | a <;> rfl

instance : LawfulMonad (Bounded ε) := LawfulMonad.mk' (Bounded ε)
  (fun c => Bounded.ext (funext fun n => by
    change bindRun (c.run n) (fun a => some (.ok a)) = c.run n
    rcases c.run n with _ | e | a <;> rfl))
  (fun _ _ => rfl)
  (fun c f g => Bounded.ext (funext fun n =>
    bindRun_assoc (c.run n) (fun a => (f a).run n) fun b => (g b).run n))

/-- So many turns of a loop, each of them under the bound `n`. -/
def turns (body : σ → Bounded ε (σ ⊕ α)) (n : Nat) : Nat → σ → Option (Outcome ε α)
  | 0, _ => none
  | k + 1, s => bindRun ((body s).run n) fun
      | .inl s => turns body n k s
      | .inr a => some (.ok a)

theorem turns_mono {body : σ → Bounded ε (σ ⊕ α)} {m n k l : Nat} (hmn : m ≤ n) (hkl : k ≤ l)
    {s : σ} {r : Outcome ε α} (h : turns body m k s = some r) : turns body n l s = some r := by
  induction k generalizing l s r with
  | zero => simp [turns] at h
  | succ k ih =>
    obtain ⟨l, rfl⟩ : ∃ j, l = j + 1 := ⟨l - 1, by omega⟩
    refine bindRun_mono ((body s).mono hmn) ?_ h
    rintro (s | a) r hr
    · exact ih (by omega) hr
    · exact hr

/-- Repeat the body, from the state it returns, until it returns a result. -/
def loop (body : σ → Bounded ε (σ ⊕ α)) (s : σ) : Bounded ε α where
  run n := turns body n n s
  mono hle h := turns_mono hle hle h

/-- Run a step on every element, from the left. -/
def traverse (f : α → Bounded ε β) : List α → Bounded ε (List β)
  | [] => pure []
  | a :: as => do
      let b ← f a
      let bs ← traverse f as
      pure (b :: bs)

/-! ## Results -/

/-- The computation ends with this result. -/
def Returns (c : Bounded ε α) (r : Outcome ε α) : Prop := ∃ n, c.run n = some r

/-- The computation ends. -/
def Terminates (c : Bounded ε α) : Prop := ∃ r, c.Returns r

theorem Returns.unique {c : Bounded ε α} {r r' : Outcome ε α} (h : c.Returns r)
    (h' : c.Returns r') : r = r' := by
  obtain ⟨m, hm⟩ := h
  obtain ⟨n, hn⟩ := h'
  have hr := c.mono (Nat.le_max_left m n) hm
  rw [c.mono (Nat.le_max_right m n) hn] at hr
  exact (Option.some.inj hr).symm

@[simp] theorem returns_ofOutcome {o r : Outcome ε α} : (ofOutcome o).Returns r ↔ r = o := by
  simp [Returns, ofOutcome, eq_comm]

@[simp] theorem returns_pure {a : α} {r : Outcome ε α} :
    (pure a : Bounded ε α).Returns r ↔ r = .ok a :=
  returns_ofOutcome

theorem returns_bind {c : Bounded ε α} {f : α → Bounded ε β} {r : Outcome ε β} :
    (c >>= f).Returns r ↔
      (∃ a, c.Returns (.ok a) ∧ (f a).Returns r) ∨ ∃ e, c.Returns (.error e) ∧ r = .error e := by
  have hrun : ∀ n, (c >>= f).run n = bindRun (c.run n) fun a => (f a).run n := fun _ => rfl
  simp only [Returns, hrun, bindRun_eq_some]
  constructor
  · rintro ⟨n, ⟨a, ha, hr⟩ | ⟨e, he, hr⟩⟩
    · exact .inl ⟨a, ⟨n, ha⟩, n, hr⟩
    · exact .inr ⟨e, ⟨n, he⟩, hr⟩
  · rintro (⟨a, ⟨m, ha⟩, n, hr⟩ | ⟨e, ⟨n, he⟩, hr⟩)
    -- The larger of the two bounds is enough for both parts.
    · exact ⟨max m n, .inl ⟨a, c.mono (Nat.le_max_left m n) ha, (f a).mono (Nat.le_max_right m n) hr⟩⟩
    · exact ⟨n, .inr ⟨e, he, hr⟩⟩

theorem returns_bind_ok {c : Bounded ε α} {f : α → Bounded ε β} {b : β} :
    (c >>= f).Returns (.ok b) ↔ ∃ a, c.Returns (.ok a) ∧ (f a).Returns (.ok b) := by
  simp [returns_bind]

theorem terminates_bind {c : Bounded ε α} {f : α → Bounded ε β} :
    (c >>= f).Terminates ↔ c.Terminates ∧ ∀ a, c.Returns (.ok a) → (f a).Terminates := by
  constructor
  · rintro ⟨r, hr⟩
    rcases returns_bind.mp hr with ⟨a, ha, hf⟩ | ⟨e, he, -⟩
    · refine ⟨⟨_, ha⟩, fun a' ha' => ?_⟩
      cases ha.unique ha'
      exact ⟨r, hf⟩
    · exact ⟨⟨_, he⟩, fun a' ha' => by cases he.unique ha'⟩
  · rintro ⟨⟨e | a, hr⟩, hf⟩
    · exact ⟨.error e, returns_bind.mpr (.inr ⟨e, hr, rfl⟩)⟩
    · obtain ⟨r, hr'⟩ := hf a hr
      exact ⟨r, returns_bind.mpr (.inl ⟨a, hr, hr'⟩)⟩

@[simp] theorem terminates_ofOutcome (o : Outcome ε α) : (ofOutcome o).Terminates :=
  ⟨o, returns_ofOutcome.mpr rfl⟩

@[simp] theorem terminates_pure (a : α) : (pure a : Bounded ε α).Terminates :=
  terminates_ofOutcome _

theorem terminates_ofOutcome_bind {o : Outcome ε α} {f : α → Bounded ε β} :
    (ofOutcome o >>= f).Terminates ↔ ∀ a, o = .ok a → (f a).Terminates := by
  rw [terminates_bind]
  simp [eq_comm]

theorem terminates_bind_pure {c : Bounded ε α} {f : α → β} :
    (do
      let a ← c
      (pure (f a) : Bounded ε β)).Terminates ↔ c.Terminates := by
  rw [terminates_bind]
  exact and_iff_left fun a _ => terminates_pure (f a)

/-- Of two computations the second one is come to when the first one succeeds. -/
theorem terminates_pair {γ : Type} {c : Bounded ε α} {d : Bounded ε β} {f : α → β → γ} :
    (do
      let a ← c
      let b ← d
      (pure (f a b) : Bounded ε γ)).Terminates ↔
      c.Terminates ∧ ((∃ a, c.Returns (.ok a)) → d.Terminates) := by
  rw [terminates_bind]
  simp only [terminates_bind_pure, forall_exists_index]

/-- A value that is only wrapped. -/
theorem returns_bind_pure_error {c : Bounded ε α} {f : α → β} {e : Fault ε} :
    (do
      let a ← c
      (pure (f a) : Bounded ε β)).Returns (.error e) ↔ c.Returns (.error e) := by
  rw [returns_bind]
  simp

/-- Of two computations the first one fails, or the second one behind it. -/
theorem returns_pair_error {γ : Type} {c : Bounded ε α} {d : Bounded ε β} {f : α → β → γ}
    {e : Fault ε} :
    (do
      let a ← c
      let b ← d
      (pure (f a b) : Bounded ε γ)).Returns (.error e) ↔
      c.Returns (.error e) ∨ (∃ a, c.Returns (.ok a)) ∧ d.Returns (.error e) := by
  rw [returns_bind]
  simp only [returns_bind_pure_error, Except.error.injEq, exists_eq_right', exists_and_right]
  exact or_comm

theorem returns_traverse_ok {f : α → Bounded ε β} {as : List α} {bs : List β} :
    (traverse f as).Returns (.ok bs) ↔ List.Forall₂ (fun a b => (f a).Returns (.ok b)) as bs := by
  induction as generalizing bs with
  | nil =>
    rw [traverse, returns_pure, Except.ok.injEq]
    exact ⟨fun h => h ▸ .nil, fun h => by cases h; rfl⟩
  | cons a as ih =>
    rw [traverse, returns_bind_ok]
    simp only [returns_bind_ok, ih, returns_pure, Except.ok.injEq]
    constructor
    · rintro ⟨b, hb, bs, hbs, rfl⟩
      exact .cons hb hbs
    · rintro (_ | ⟨hb, hbs⟩)
      exact ⟨_, hb, _, hbs, rfl⟩

/-- The steps fail at the first one that does. -/
theorem returns_traverse_error {f : α → Bounded ε β} {as : List α} {e : Fault ε} :
    (traverse f as).Returns (.error e) ↔ ∃ before a after, as = before ++ a :: after ∧
      (∀ b ∈ before, ∃ x, (f b).Returns (.ok x)) ∧ (f a).Returns (.error e) := by
  induction as generalizing e with
  | nil => simp [traverse]
  | cons a as ih =>
    rw [traverse, returns_bind]
    simp only [returns_bind, ih, returns_pure, Except.error.injEq, reduceCtorEq, and_false,
      exists_false, false_or]
    constructor
    · rintro (⟨x, hx, _, ⟨before, c, after, rfl, hbefore, hc⟩, rfl⟩ | ⟨_, he, rfl⟩)
      · refine ⟨a :: before, c, after, rfl, fun b hb => ?_, hc⟩
        rcases List.mem_cons.mp hb with rfl | hb
        · exact ⟨x, hx⟩
        · exact hbefore b hb
      · exact ⟨[], a, as, rfl, nofun, he⟩
    · rintro ⟨before, c, after, heq, hbefore, hc⟩
      cases before with
      | nil =>
        cases heq
        exact .inr ⟨e, hc, rfl⟩
      | cons b before =>
        cases heq
        obtain ⟨x, hx⟩ := hbefore a List.mem_cons_self
        have hlater := fun c hc => hbefore c (List.mem_cons_of_mem _ hc)
        exact .inl ⟨x, hx, e, ⟨before, c, after, rfl, hlater, hc⟩, rfl⟩

theorem exists_traverse_ok {f : α → Bounded ε β} {as : List α} :
    (∃ bs, (traverse f as).Returns (.ok bs)) ↔ ∀ a ∈ as, ∃ b, (f a).Returns (.ok b) := by
  simp only [returns_traverse_ok]
  induction as with
  | nil => exact iff_of_true ⟨[], .nil⟩ nofun
  | cons a as ih =>
    rw [List.forall_mem_cons, ← ih]
    constructor
    · rintro ⟨_, _ | ⟨hb, hbs⟩⟩
      exact ⟨⟨_, hb⟩, _, hbs⟩
    · rintro ⟨⟨b, hb⟩, bs, hbs⟩
      exact ⟨b :: bs, .cons hb hbs⟩

/-- The same for steps that are numbered. -/
theorem returns_traverse_range_error {f : α → Bounded ε β} {g : Nat → α} {n : Nat}
    {e : Fault ε} :
    (traverse f ((List.range n).map g)).Returns (.error e) ↔
      ∃ k < n, (∀ j < k, ∃ x, (f (g j)).Returns (.ok x)) ∧ (f (g k)).Returns (.error e) := by
  rw [returns_traverse_error]
  constructor
  · rintro ⟨before, a, after, heq, hbefore, ha⟩
    have hlen : before.length < n := by
      have hlength := congrArg List.length heq
      simp only [List.length_map, List.length_range, List.length_append, List.length_cons] at hlength
      omega
    have hget : ∀ i < n, (before ++ a :: after)[i]? = some (g i) := by
      intro i hi
      rw [← heq, List.getElem?_map, List.getElem?_range hi, Option.map_some]
    refine ⟨before.length, hlen, fun j hj => hbefore _ ?_, ?_⟩
    · have hj' := hget j (by omega)
      rw [List.getElem?_append_left hj] at hj'
      exact List.mem_of_getElem? hj'
    · have hlast := hget before.length hlen
      rw [List.getElem?_append_right (Nat.le_refl _), Nat.sub_self] at hlast
      rwa [← Option.some.inj hlast]
  · rintro ⟨k, hk, hbefore, he⟩
    refine ⟨(List.range k).map g, g k, ((List.range n).drop (k + 1)).map g, ?_, ?_, he⟩
    · have hsplit : List.range n = (List.range n).take k ++ k :: (List.range n).drop (k + 1) := by
        have hdrop := List.drop_eq_getElem_cons (l := List.range n) (i := k) (by simpa using hk)
        rw [List.getElem_range] at hdrop
        rw [← hdrop, List.take_append_drop]
      rw [List.take_range, Nat.min_eq_left (Nat.le_of_lt hk)] at hsplit
      conv_lhs => rw [hsplit]
      rw [List.map_append, List.map_cons]
    · intro b hb
      obtain ⟨j, hj, rfl⟩ := List.mem_map.mp hb
      exact hbefore j (List.mem_range.mp hj)

/-- The steps end when each one that is come to does. -/
theorem terminates_traverse {f : α → Bounded ε β} {as : List α} :
    (traverse f as).Terminates ↔ ∀ before a after, as = before ++ a :: after →
      (∀ b ∈ before, ∃ x, (f b).Returns (.ok x)) → (f a).Terminates := by
  induction as with
  | nil => simp [traverse]
  | cons a as ih =>
    rw [traverse, terminates_bind]
    simp only [terminates_bind_pure, ih]
    constructor
    · rintro ⟨hfirst, hlater⟩ before c after heq hbefore
      cases before with
      | nil =>
        cases heq
        exact hfirst
      | cons b before =>
        cases heq
        obtain ⟨x, hx⟩ := hbefore a List.mem_cons_self
        exact hlater x hx before c after rfl fun b hb => hbefore b (List.mem_cons_of_mem _ hb)
    · intro h
      refine ⟨h [] a as rfl nofun, fun x hx before c after heq hbefore => ?_⟩
      refine h (a :: before) c after (by rw [heq, List.cons_append]) fun b hb => ?_
      rcases List.mem_cons.mp hb with rfl | hb
      · exact ⟨x, hx⟩
      · exact hbefore b hb

/-! ## Loops -/

/-- A loop is its body, followed by the loop from the state that the body returns. -/
theorem returns_loop {body : σ → Bounded ε (σ ⊕ α)} {s : σ} {r : Outcome ε α} :
    (loop body s).Returns r ↔ (body s >>= Sum.elim (loop body) pure).Returns r := by
  rw [returns_bind]
  constructor
  · rintro ⟨n, hn⟩
    cases n with
    | zero => cases hn
    | succ n =>
      rcases bindRun_eq_some.mp hn with ⟨s' | a, hbody, hr⟩ | ⟨e, hbody, hr⟩
      · -- The turns that are left are enough for the rest of the loop.
        exact .inl ⟨.inl s', ⟨_, hbody⟩, n + 1, turns_mono (Nat.le_refl _) (by omega) hr⟩
      · exact .inl ⟨.inr a, ⟨_, hbody⟩, returns_pure.mpr (Option.some.inj hr).symm⟩
      · exact .inr ⟨e, ⟨_, hbody⟩, hr⟩
  · rintro (⟨s' | a, ⟨m, hbody⟩, hr⟩ | ⟨e, ⟨n, hbody⟩, rfl⟩)
    · -- One turn for the body, and enough for it and for the rest.
      obtain ⟨n, hn⟩ := hr
      refine ⟨max m n + 1, bindRun_eq_some.mpr (.inl ⟨.inl s', ?_, ?_⟩)⟩
      · exact (body s).mono (by omega) hbody
      · exact turns_mono (by omega) (by omega) hn
    · refine ⟨m + 1, bindRun_eq_some.mpr (.inl ⟨.inr a, (body s).mono (by omega) hbody, ?_⟩)⟩
      rw [returns_pure.mp hr]
    · exact ⟨n + 1, bindRun_eq_some.mpr (.inr ⟨e, (body s).mono (by omega) hbody, rfl⟩)⟩

/-- A loop whose body always returns one more state never ends. -/
theorem loop_not_terminates {body : σ → Bounded ε (σ ⊕ α)} {P : σ → Prop}
    (hstep : ∀ s, P s → ∃ s', (body s).Returns (.ok (.inl s')) ∧ P s') {s : σ} (hs : P s) :
    ¬ (loop body s).Terminates := by
  rintro ⟨r, n, hn⟩
  change turns body n n s = some r at hn
  -- Under any bound on a turn no number of turns is enough.
  have hnever : ∀ k s, P s → turns body n k s ≠ some r := by
    intro k
    induction k with
    | zero => exact fun s _ h => by cases h
    | succ k ih =>
      intro s hs hr
      obtain ⟨s', hbody, hs'⟩ := hstep s hs
      rcases bindRun_eq_some.mp hr with ⟨x, hx, hrest⟩ | ⟨e, he, -⟩
      · cases hbody.unique ⟨n, hx⟩
        exact ih s' hs' hrest
      · cases hbody.unique ⟨n, he⟩
  exact hnever n s hs hn

end Bounded

end Wire
