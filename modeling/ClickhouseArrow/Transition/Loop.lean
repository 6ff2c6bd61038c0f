import Mathlib.Init

/-!
# Loops that may not end

A turn of a loop either leads to another turn or leaves the loop with a result.  The loop
itself is run with fuel; it returns a result where some amount of fuel is enough.
-/

namespace ClickhouseArrow

namespace Transition

variable {σ ρ : Type}

/-- What a turn makes of the state of a loop. -/
inductive Turn (σ ρ : Type)
  | again (s : σ)
  | done (r : ρ)

namespace Loop

/-- The loop, for at most `fuel` turns. -/
def run (turn : σ → Turn σ ρ) : Nat → σ → Option ρ
  | 0, _ => none
  | fuel + 1, s =>
    match turn s with
    | .again s' => run turn fuel s'
    | .done r => some r

/-- The loop leaves with `r` after finitely many turns. -/
def Returns (turn : σ → Turn σ ρ) (s : σ) (r : ρ) : Prop := ∃ fuel, run turn fuel s = some r

variable {turn : σ → Turn σ ρ} {s s' : σ} {r r' : ρ}

theorem returns_again (h : turn s = .again s') : Returns turn s r ↔ Returns turn s' r := by
  constructor
  · rintro ⟨fuel, hfuel⟩
    cases fuel with
    | zero => exact absurd hfuel (by simp [run])
    | succ fuel => exact ⟨fuel, by simpa [run, h] using hfuel⟩
  · rintro ⟨fuel, hfuel⟩
    exact ⟨fuel + 1, by simpa [run, h] using hfuel⟩

theorem returns_done (h : turn s = .done r) : Returns turn s r' ↔ r' = r := by
  constructor
  · rintro ⟨fuel, hfuel⟩
    cases fuel with
    | zero => exact absurd hfuel (by simp [run])
    | succ fuel => exact (by simpa [run, h] using hfuel : r = r').symm
  · rintro rfl
    exact ⟨1, by simp [run, h]⟩

/-- The rule for what a loop that returns has computed. -/
theorem Returns.rule {I : σ → Prop} {Q : ρ → Prop}
    (hagain : ∀ s s', I s → turn s = .again s' → I s')
    (hdone : ∀ s r, I s → turn s = .done r → Q r)
    (h : Returns turn s r) (hs : I s) : Q r := by
  obtain ⟨fuel, hfuel⟩ := h
  induction fuel generalizing s with
  | zero => exact absurd hfuel (by simp [run])
  | succ fuel ih =>
    rw [run] at hfuel
    split at hfuel
    · next s' hturn => exact ih (hagain s s' hs hturn) hfuel
    · next r' hturn =>
      cases hfuel
      exact hdone s r hs hturn

theorem Returns.unique (h : Returns turn s r) (h' : Returns turn s r') : r = r' := by
  refine Returns.rule (I := fun t => Returns turn t r') (Q := fun q => q = r') ?_ ?_ h h'
  · intro t t' ht hturn
    exact (returns_again hturn).mp ht
  · intro t q ht hturn
    exact ((returns_done hturn).mp ht).symm

/-- The rule for loops that never return: from a state with `I` each turn leads to another
one. -/
theorem not_returns {I : σ → Prop} (hturn : ∀ s, I s → ∃ s', turn s = .again s' ∧ I s')
    (hs : I s) : ¬ Returns turn s r := by
  intro h
  refine Returns.rule (I := I) (Q := fun _ => False) ?_ ?_ h hs
  · intro t t' ht heq
    obtain ⟨t'', ht'', hI⟩ := hturn t ht
    rw [heq] at ht''
    cases ht''
    exact hI
  · intro t q ht heq
    obtain ⟨t'', ht'', -⟩ := hturn t ht
    rw [heq] at ht''
    exact absurd ht'' (by simp)

/-- The rule for loops that return: each turn that does not leave the loop keeps `I` and
makes `μ` smaller. -/
theorem exists_returns {I : σ → Prop} {Q : ρ → Prop} (μ : σ → Nat)
    (hturn : ∀ s, I s → (∃ r, turn s = .done r ∧ Q r) ∨
      ∃ s', turn s = .again s' ∧ I s' ∧ μ s' < μ s)
    (hs : I s) : ∃ r, Returns turn s r ∧ Q r := by
  induction hμ : μ s using Nat.strongRecOn generalizing s with
  | _ n ih =>
    subst hμ
    obtain ⟨r, hr, hQ⟩ | ⟨s', hs', hI, hlt⟩ := hturn s hs
    · exact ⟨r, (returns_done hr).mpr rfl, hQ⟩
    · obtain ⟨r, hr, hQ⟩ := ih (μ s') hlt hI rfl
      exact ⟨r, (returns_again hs').mpr hr, hQ⟩

end Loop

end Transition

end ClickhouseArrow
