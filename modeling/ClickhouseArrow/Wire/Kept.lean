import ClickhouseArrow.Wire.Reader

/-!
# Readers over a state that is kept

A reader that fills something as it goes leaves it half filled when it fails.  The module fixes

- `StateReader`, a reader over a state that is there after a failure as well,
- `Agrees`, "these two results are the same error, or values and a state that satisfy `Q`",
- `Tracks`, "from these states the reader does what that one does without a state", with one rule
  for each combinator,
- `Restores`, the case in which the state is left as good as it was found.
-/

namespace Wire

/-- A reader over a state.  The state outlives a failure. -/
def StateReader (σ ε α : Type) := Bytes → σ → Outcome ε (α × Bytes) × σ

namespace StateReader

variable {σ τ ε α β : Type}

/-- The second reader goes on with the bytes and with the state that the first one leaves. -/
protected def bind (p : StateReader σ ε α) (f : α → StateReader σ ε β) : StateReader σ ε β :=
  fun bs s =>
    match (p bs s).1 with
    | .ok x => f x.1 x.2 (p bs s).2
    | .error e => (.error e, (p bs s).2)

instance : Monad (StateReader σ ε) where
  pure a := fun bs s => (.ok (a, bs), s)
  bind := StateReader.bind

/-- A reader that leaves the state alone. -/
def lift (p : Reader ε α) : StateReader σ ε α := fun bs s => (p bs, s)

/-- Return an error. -/
def fail (e : ε) : StateReader σ ε α := fun _ s => (.error (.error e), s)

/-- The state. -/
def get : StateReader σ ε σ := fun bs s => (.ok (s, bs), s)

/-- Change the state. -/
def modify (f : σ → σ) : StateReader σ ε Unit := fun bs s => (.ok ((), bs), f s)

/-- Work on a part of the state. -/
def zoom (part : σ → τ) (put : τ → σ → σ) (p : StateReader τ ε α) : StateReader σ ε α :=
  fun bs s => ((p bs (part s)).1, put (p bs (part s)).2 s)

@[simp] theorem pure_apply (a : α) (bs : Bytes) (s : σ) :
    (pure a : StateReader σ ε α) bs s = (.ok (a, bs), s) := rfl

theorem bind_of_ok {p : StateReader σ ε α} {f : α → StateReader σ ε β} {bs rest : Bytes} {s s' : σ}
    {a : α} (h : p bs s = (.ok (a, rest), s')) : (p >>= f) bs s = f a rest s' := by
  show StateReader.bind p f bs s = f a rest s'
  rw [StateReader.bind, h]

theorem bind_of_error {p : StateReader σ ε α} {f : α → StateReader σ ε β} {bs : Bytes} {s : σ}
    {e : Fault ε} (h : (p bs s).1 = .error e) : (p >>= f) bs s = (.error e, (p bs s).2) := by
  show StateReader.bind p f bs s = (.error e, (p bs s).2)
  rw [StateReader.bind, h]

/-- Two readers in a row succeed where the first one does and the second one does behind it. -/
theorem bind_eq_ok {p : StateReader σ ε α} {f : α → StateReader σ ε β} {bs : Bytes} {s s' : σ}
    {x : β × Bytes} (h : (p >>= f) bs s = (.ok x, s')) :
    ∃ a rest s'', p bs s = (.ok (a, rest), s'') ∧ f a rest s'' = (.ok x, s') := by
  cases hp : (p bs s).1 with
  | error e =>
      rw [bind_of_error hp] at h
      cases h
  | ok y =>
      have hrun : p bs s = (.ok (y.1, y.2), (p bs s).2) := Prod.ext hp rfl
      rw [bind_of_ok hrun] at h
      exact ⟨y.1, y.2, (p bs s).2, hrun, h⟩

end StateReader

/-! ## Tracking -/

section Tracks

variable {σ τ ε α β γ δ : Type} {P P' : σ → Prop}

/-- A result over a state and one without end with the same error or with the same bytes left.
Values and the state that is left satisfy `Q`. -/
def Agrees (Q : α → β → σ → Prop) (o : Outcome ε (α × Bytes) × σ) (o' : Outcome ε (β × Bytes)) :
    Prop :=
  (∀ e, o' = .error e → o.1 = .error e) ∧
    ∀ b rest, o' = .ok (b, rest) → ∃ a s', o = (.ok (a, rest), s') ∧ Q a b s'

/-- From the states of `P` the reader ends as the stateless one does. -/
def Tracks (P : σ → Prop) (p : StateReader σ ε α) (q : Reader ε β) (Q : α → β → σ → Prop) : Prop :=
  ∀ bs s, P s → Agrees Q (p bs s) (q bs)

/-- The reader returns what the stateless one returns, and a state as good as it was given. -/
abbrev Restores (P : σ → Prop) (p : StateReader σ ε α) (q : Reader ε α) : Prop :=
  Tracks P p q fun a b s => a = b ∧ P s

theorem Tracks.pure {a : α} {b : β} {Q : α → β → σ → Prop} (h : ∀ s, P s → Q a b s) :
    Tracks P (Pure.pure a : StateReader σ ε α) (Pure.pure b) Q := by
  intro bs s hs
  constructor
  · intro e he
    cases he
  · intro b' rest hok
    obtain ⟨rfl, rfl⟩ := Prod.mk.inj (Except.ok.inj hok)
    exact ⟨a, s, rfl, h s hs⟩

/-- Where the values are the same, the results are. -/
theorem Agrees.fst_eq {o : Outcome ε (α × Bytes) × σ} {o' : Outcome ε (α × Bytes)}
    {Q : α → α → σ → Prop} (h : Agrees Q o o') (hQ : ∀ a b s, Q a b s → a = b) : o.1 = o' := by
  cases ho : o' with
  | error e => exact h.1 e ho
  | ok x =>
      obtain ⟨a, s', hrun, ha⟩ := h.2 x.1 x.2 ho
      rw [hrun, hQ a x.1 s' ha]

/-- Two readers in a row, from given bytes and from a given state. -/
theorem Agrees.bind {p : StateReader σ ε α} {q : Reader ε β} {Q : α → β → σ → Prop}
    {f : α → StateReader σ ε γ} {g : β → Reader ε δ} {R : γ → δ → σ → Prop} {bs : Bytes} {s : σ}
    (hp : Agrees Q (p bs s) (q bs))
    (hf : ∀ a b rest s', q bs = .ok (b, rest) → Q a b s' → Agrees R (f a rest s') (g b rest)) :
    Agrees R ((p >>= f) bs s) ((q >>= g) bs) := by
  obtain ⟨herror, hok⟩ := hp
  rw [Reader.bind_apply]
  cases hq : q bs with
  | error e =>
      constructor
      · rintro e' he'
        obtain rfl := Except.error.inj he'
        rw [StateReader.bind_of_error (herror e hq)]
      · intro d rest h
        cases h
  | ok x =>
      obtain ⟨a, s', hrun, ha⟩ := hok x.1 x.2 hq
      rw [StateReader.bind_of_ok hrun]
      exact hf a x.1 x.2 s' hq ha

theorem Tracks.bind {p : StateReader σ ε α} {q : Reader ε β} {Q : α → β → σ → Prop}
    {f : α → StateReader σ ε γ} {g : β → Reader ε δ} {R : γ → δ → σ → Prop} (hp : Tracks P p q Q)
    (hf : ∀ a b, Tracks (Q a b) (f a) (g b) R) : Tracks P (p >>= f) (q >>= g) R :=
  fun bs s hs => (hp bs s hs).bind fun a b rest s' _ ha => hf a b rest s' ha

theorem Tracks.mono {p : StateReader σ ε α} {q : Reader ε β} {Q R : α → β → σ → Prop}
    (h : Tracks P p q Q) (hP : ∀ s, P' s → P s) (hQ : ∀ a b s, Q a b s → R a b s) :
    Tracks P' p q R := by
  intro bs s hs
  obtain ⟨herror, hok⟩ := h bs s (hP s hs)
  refine ⟨herror, fun b rest hb => ?_⟩
  obtain ⟨a, s', hrun, ha⟩ := hok b rest hb
  exact ⟨a, s', hrun, hQ a b s' ha⟩

/-- What holds before may be used. -/
theorem Tracks.of_pre {p : StateReader σ ε α} {q : Reader ε β} {Q : α → β → σ → Prop}
    (h : ∀ s, P s → Tracks (fun s' => s' = s) p q Q) : Tracks P p q Q :=
  fun bs s hs => h s hs bs s rfl

/-- A reader that leaves the state alone. -/
theorem Restores.lift (q : Reader ε α) : Restores P (StateReader.lift q) q := by
  intro bs s hs
  refine ⟨fun e he => he, fun b rest hb => ⟨b, s, ?_, rfl, hs⟩⟩
  rw [StateReader.lift, hb]

theorem Tracks.fail (e : ε) (Q : α → β → σ → Prop) :
    Tracks P (StateReader.fail e) (Reader.fail e) Q := by
  intro bs s _
  constructor
  · intro e' he'
    obtain rfl := Except.error.inj he'
    rfl
  · intro b rest h
    cases h

/-- A step on the state alone. -/
theorem Tracks.modify_bind (P' : σ → Prop) {f : σ → σ} {k : Unit → StateReader σ ε α} {q : Reader ε β}
    {Q : α → β → σ → Prop} (hf : ∀ s, P s → P' (f s)) (hk : Tracks P' (k ()) q Q) :
    Tracks P (StateReader.modify f >>= k) q Q :=
  fun bs s hs => hk bs (f s) (hf s hs)

theorem Tracks.get_bind {k : σ → StateReader σ ε α} {q : Reader ε β} {Q : α → β → σ → Prop}
    (hk : ∀ s, P s → Tracks (fun s' => s' = s) (k s) q Q) :
    Tracks P (StateReader.get >>= k) q Q :=
  fun bs s hs => hk s hs bs s rfl

/-- The stateless reader may do more with its value. -/
theorem Agrees.bind_pure {o : Outcome ε (α × Bytes) × σ} {q : Reader ε β} {Q : α → β → σ → Prop}
    {g : β → γ} {R : α → γ → σ → Prop} {bs : Bytes} (h : Agrees Q o (q bs))
    (hg : ∀ a b s, Q a b s → R a (g b) s) :
    Agrees R o ((q >>= fun b => Pure.pure (g b)) bs) := by
  obtain ⟨herror, hok⟩ := h
  rw [Reader.bind_apply]
  cases hq : q bs with
  | error e =>
      constructor
      · intro e' he'
        obtain rfl := Except.error.inj he'
        exact herror e hq
      · intro c rest hc
        cases hc
  | ok x =>
      constructor
      · intro e he
        cases he
      · intro c rest hc
        obtain ⟨rfl, rfl⟩ := Prod.mk.inj (Except.ok.inj hc)
        obtain ⟨a, s', hrun, ha⟩ := hok x.1 x.2 hq
        exact ⟨a, s', hrun, hg a x.1 s' ha⟩

theorem Tracks.bind_pure {p : StateReader σ ε α} {q : Reader ε β} {Q : α → β → σ → Prop}
    {g : β → γ} {R : α → γ → σ → Prop} (h : Tracks P p q Q) (hg : ∀ a b s, Q a b s → R a (g b) s) :
    Tracks P p (q >>= fun b => Pure.pure (g b)) R :=
  fun bs s hs => (h bs s hs).bind_pure hg

theorem Tracks.ite {c : Prop} [Decidable c] {p p' : StateReader σ ε α} {q q' : Reader ε β}
    {Q : α → β → σ → Prop} (hpos : c → Tracks P p q Q) (hneg : ¬ c → Tracks P p' q' Q) :
    Tracks P (if c then p else p') (if c then q else q') Q := by
  by_cases h : c
  · simpa only [if_pos h] using hpos h
  · simpa only [if_neg h] using hneg h

/-- The rest of the state is not touched. -/
theorem Tracks.zoom {part : σ → τ} {put : τ → σ → σ} {T : τ → Prop} {p : StateReader τ ε α}
    {q : Reader ε β} {Q : α → β → τ → Prop} {R : α → β → σ → Prop} (h : Tracks T p q Q)
    (hpart : ∀ s, P s → T (part s)) (hput : ∀ a b s t, P s → Q a b t → R a b (put t s)) :
    Tracks P (StateReader.zoom part put p) q R := by
  intro bs s hs
  obtain ⟨herror, hok⟩ := h bs (part s) (hpart s hs)
  refine ⟨herror, fun b rest hb => ?_⟩
  obtain ⟨a, t, hrun, ha⟩ := hok b rest hb
  refine ⟨a, put t s, ?_, hput a b s t hs ha⟩
  show ((p bs (part s)).1, put (p bs (part s)).2 s) = _
  rw [hrun]

/-- Behind a step that returns what the stateless one returns. -/
theorem Tracks.bind_eq {p : StateReader σ ε α} {q : Reader ε α} {f : α → StateReader σ ε γ}
    {g : α → Reader ε δ} {R : γ → δ → σ → Prop} (hp : Restores P p q)
    (hf : ∀ a, Tracks P (f a) (g a) R) : Tracks P (p >>= f) (q >>= g) R := by
  refine Tracks.bind hp fun a b => ?_
  apply Tracks.of_pre
  rintro s ⟨rfl, hs⟩
  exact (hf a).mono (fun s' hs' => hs' ▸ hs) fun _ _ _ h => h

theorem Restores.bind {p : StateReader σ ε α} {q : Reader ε α} {f : α → StateReader σ ε γ}
    {g : α → Reader ε γ} (hp : Restores P p q) (hf : ∀ a, Restores P (f a) (g a)) :
    Restores P (p >>= f) (q >>= g) :=
  Tracks.bind_eq hp hf

theorem Restores.pure (a : α) : Restores P (Pure.pure a : StateReader σ ε α) (Pure.pure a) :=
  Tracks.pure fun _ hs => ⟨rfl, hs⟩

theorem Restores.fail (e : ε) :
    Restores P (StateReader.fail e : StateReader σ ε α) (Reader.fail e) :=
  Tracks.fail e _

end Tracks

end Wire
