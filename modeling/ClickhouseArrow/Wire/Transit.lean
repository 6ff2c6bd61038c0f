import ClickhouseArrow.Wire.Reader

/-!
# What becomes of a value that is written and read

A writer refuses a value or writes bytes for it, and a reader that is given these bytes gets stuck
in them or returns a value, whatever stands behind them.  `Transit` has a constructor for each of
the three, and beside it a condition that decides which values come back.  The rules lead from the
parts of a value to the whole.
-/

namespace Wire

variable {ε ζ α β γ : Type}

/-- What becomes of a value.  Every value that is read keeps `keeps`, and it shows what was written
exactly under the condition `carried`. -/
inductive Transit (carried : Prop) (keeps shows : α → Prop) (write : Outcome ε Bytes)
    (read : Reader ζ α) : Prop
  | refused (hwrite : ∀ bytes, write ≠ .ok bytes) (hnot : ¬ carried)
  | stuck {bytes : Bytes} (hwrite : write = .ok bytes) (hread : Stuck read bytes)
      (hnot : ¬ carried)
  | back {bytes : Bytes} {a : α} (hwrite : write = .ok bytes) (hread : Reads read bytes a)
      (hkeeps : keeps a) (hshows : shows a ↔ carried)

namespace Transit

variable {c c₁ c₂ : Prop} {k s : α → Prop} {k₁ s₁ : β → Prop} {k₂ s₂ : γ → Prop}
  {w w₁ w₂ : Outcome ε Bytes} {r : Reader ζ α} {r₁ : Reader ζ β} {r₂ : Reader ζ γ}

/-- A value that is read ends where its bytes do. -/
theorem rest_eq (h : Transit c k s w r) {bytes rest rest' : Bytes} {a : α} (hw : w = .ok bytes)
    (hr : r (bytes ++ rest) = .ok (a, rest')) : rest' = rest := by
  cases h with
  | refused hwrite _ => exact absurd hw (hwrite bytes)
  | stuck hwrite hread _ =>
    obtain rfl := Except.ok.inj (hw.symm.trans hwrite)
    exact absurd hr (hread rest _)
  | back hwrite hread _ _ =>
    obtain rfl := Except.ok.inj (hw.symm.trans hwrite)
    have hsame := hr.symm.trans (hread rest)
    exact (Prod.mk.inj (Except.ok.inj hsame)).2

/-- What is read shows what was written only under the condition. -/
theorem carried_of_shows (h : Transit c k s w r) {bytes rest rest' : Bytes} {a : α}
    (hw : w = .ok bytes) (hr : r (bytes ++ rest) = .ok (a, rest')) (hs : s a) : c := by
  cases h with
  | refused hwrite _ => exact absurd hw (hwrite bytes)
  | stuck hwrite hread _ =>
    obtain rfl := Except.ok.inj (hw.symm.trans hwrite)
    exact absurd hr (hread rest _)
  | back hwrite hread _ hshows =>
    obtain rfl := Except.ok.inj (hw.symm.trans hwrite)
    obtain ⟨rfl, -⟩ := Prod.mk.inj (Except.ok.inj (hr.symm.trans (hread rest)))
    exact hshows.mp hs

/-- The condition in other words. -/
theorem congr (h : Transit c₁ k s w r) (hiff : c₁ ↔ c) : Transit c k s w r := by
  rwa [← propext hiff]

/-- A reader that ends in the same way on every input. -/
theorem simulated {ζ' : Type} {r' : Reader ζ' α} (h : Transit c k s w r)
    (hsame : Simulates (fun a b => a = b) r r') : Transit c k s w r' := by
  cases h with
  | refused hwrite hnot => exact .refused hwrite hnot
  | stuck hwrite hread hnot =>
    exact .stuck hwrite (fun rest x hx => hread rest x (hsame.eq_ok_iff.mp hx)) hnot
  | back hwrite hread hkeeps hshows =>
    exact .back hwrite (fun rest => hsame.eq_ok_iff.mpr (hread rest)) hkeeps hshows

/-- What is made of the value once it has been read, for which nothing more is written. -/
theorem finish {f : β → Reader ζ α} (h : Transit c₁ k₁ s₁ w r₁) (himp : c → c₁)
    (hf : ∀ b, k₁ b → (s₁ b ↔ c₁) → Transit c k s (.ok [] : Outcome ε Bytes) (f b)) :
    Transit c k s w (r₁ >>= f) := by
  cases h with
  | refused hwrite hnot => exact .refused hwrite fun hc => hnot (himp hc)
  | stuck hwrite hread hnot => exact .stuck hwrite (hread.bind _) fun hc => hnot (himp hc)
  | @back bytes b hwrite hread hkeeps hshows =>
    cases hf b hkeeps hshows with
    | refused hnil _ => exact absurd rfl (hnil [])
    | stuck hnil hstuck hnot =>
      cases hnil
      have hall := hread.bind_stuck hstuck
      rw [List.append_nil] at hall
      exact .stuck hwrite hall hnot
    | back hnil hdone hkeeps₂ hshows₂ =>
      cases hnil
      exact .back hwrite (hread.bind_nil hdone) hkeeps₂ hshows₂

/-- Two values one behind the other, and what is made of them. -/
theorem seq {f : β → γ → Reader ζ α} (h₁ : Transit c₁ k₁ s₁ w₁ r₁) (h₂ : Transit c₂ k₂ s₂ w₂ r₂)
    (himp : c → c₁ ∧ c₂)
    (hf : ∀ a b, k₁ a → k₂ b → (s₁ a ↔ c₁) → (s₂ b ↔ c₂) →
      Transit c k s (.ok [] : Outcome ε Bytes) (f a b)) :
    Transit c k s (w₁ >>= fun x => w₂ >>= fun y => .ok (x ++ y))
      (r₁ >>= fun a => r₂ >>= fun b => f a b) := by
  cases h₁ with
  | refused hwrite hnot =>
    refine .refused (fun bytes h => ?_) fun hc => hnot (himp hc).1
    obtain ⟨x, hx, -⟩ := Outcome.bind_eq_ok.mp h
    exact hwrite x hx
  | @stuck bytes₁ hwrite hread hnot =>
    cases h₂ with
    | refused hwrite₂ hnot₂ =>
      refine .refused (fun bytes h => ?_) fun hc => hnot₂ (himp hc).2
      rw [hwrite, Outcome.ok_bind] at h
      obtain ⟨y, hy, -⟩ := Outcome.bind_eq_ok.mp h
      exact hwrite₂ y hy
    | stuck hwrite₂ _ _ | back hwrite₂ _ _ _ =>
      -- what stands behind the first value does not help
      refine .stuck (by rw [hwrite, Outcome.ok_bind, hwrite₂, Outcome.ok_bind]) ?_
        fun hc => hnot (himp hc).1
      exact (hread.append _).bind _
  | @back bytes₁ a hwrite hread hkeeps hshows =>
    have hsecond := h₂.finish (fun hc => (himp hc).2) fun b hb hiff => hf a b hkeeps hb hshows hiff
    cases hsecond with
    | refused hwrite₂ hnot =>
      refine .refused (fun bytes h => ?_) hnot
      rw [hwrite, Outcome.ok_bind] at h
      obtain ⟨y, hy, -⟩ := Outcome.bind_eq_ok.mp h
      exact hwrite₂ y hy
    | stuck hwrite₂ hstuck hnot =>
      refine .stuck (by rw [hwrite, Outcome.ok_bind, hwrite₂, Outcome.ok_bind]) ?_ hnot
      exact hread.bind_stuck hstuck
    | back hwrite₂ hdone hkeeps₂ hshows₂ =>
      exact .back (by rw [hwrite, Outcome.ok_bind, hwrite₂, Outcome.ok_bind])
        (hread.bind hdone) hkeeps₂ hshows₂

/-- What is read first does not depend on the value. -/
theorem after {p : Reader ζ β} {bs : Bytes} {x : β} {f : β → Reader ζ α} (hp : Reads p bs x)
    (h : Transit c k s w (f x)) : Transit c k s (w >>= fun y => .ok (bs ++ y)) (p >>= f) := by
  cases h with
  | refused hwrite hnot =>
    refine .refused (fun bytes h => ?_) hnot
    obtain ⟨y, hy, -⟩ := Outcome.bind_eq_ok.mp h
    exact hwrite y hy
  | stuck hwrite hread hnot =>
    exact .stuck (by rw [hwrite, Outcome.ok_bind]) (hp.bind_stuck hread) hnot
  | back hwrite hread hkeeps hshows =>
    exact .back (by rw [hwrite, Outcome.ok_bind]) (hp.bind hread) hkeeps hshows

theorem nil_after {p : Reader ζ β} {x : β} {f : β → Reader ζ α} (hp : Reads p [] x)
    (h : Transit c k s w (f x)) : Transit c k s w (p >>= f) := by
  cases h with
  | refused hwrite hnot => exact .refused hwrite hnot
  | stuck hwrite hread hnot => exact .stuck hwrite (hp.bind_stuck hread) hnot
  | back hwrite hread hkeeps hshows => exact .back hwrite (hp.nil_bind hread) hkeeps hshows

/-- What is true of everything that is read. -/
theorem keep {k' : α → Prop} (h : Transit c k s w r) (hall : ∀ bytes a, Reads r bytes a → k' a) :
    Transit c (fun a => k' a ∧ k a) s w r := by
  cases h with
  | refused hwrite hnot => exact .refused hwrite hnot
  | stuck hwrite hread hnot => exact .stuck hwrite hread hnot
  | back hwrite hread hkeeps hshows =>
    exact .back hwrite hread ⟨hall _ _ hread, hkeeps⟩ hshows

theorem weaken {k' : α → Prop} (h : Transit c k s w r) (hall : ∀ a, k a → k' a) :
    Transit c k' s w r := by
  cases h with
  | refused hwrite hnot => exact .refused hwrite hnot
  | stuck hwrite hread hnot => exact .stuck hwrite hread hnot
  | back hwrite hread hkeeps hshows => exact .back hwrite hread (hall _ hkeeps) hshows

/-- Nothing is left to be read. -/
theorem done {o : Outcome ζ α} {a : α} (ho : o = .ok a) (hk : k a) (hs : s a ↔ c) :
    Transit c k s (.ok [] : Outcome ε Bytes) (Reader.ofOutcome o) :=
  .back rfl (Reads.ofOutcome ho) hk hs

/-- A reader that returns nothing, whatever the bytes are. -/
theorem of_never (hnot : ¬ c) (h : ∀ bs x, r bs ≠ .ok x) : Transit c k s w r := by
  cases hw : w with
  | ok bytes => exact .stuck rfl (fun rest x => h _ x) hnot
  | error e => exact .refused (fun bytes h => by cases h) hnot

end Transit

end Wire
