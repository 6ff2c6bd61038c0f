import Mathlib.Data.List.Induction

/-!
# Machines that take inputs and leave a history of moves

A machine takes inputs one after another; an input that it does not accept in its state is
passed over.  A move records the state before and after an accepted input, the input, and
what the machine put out.  Every list of inputs therefore has a history, and a statement
about all runs is a statement about all lists of inputs.
-/

namespace ClickhouseArrow

namespace Transition

variable {σ ι ο : Type}

/-- A step function: the next state and the outputs, where the input is accepted. -/
abbrev Machine (σ ι ο : Type) := σ → ι → Option (σ × List ο)

structure Move (σ ι ο : Type) where
  before : σ
  input : ι
  out : List ο
  after : σ

namespace Machine

/-- The moves that a list of inputs causes. -/
def moves (m : Machine σ ι ο) : σ → List ι → List (Move σ ι ο)
  | _, [] => []
  | s, i :: is =>
    match m s i with
    | none => moves m s is
    | some r => ⟨s, i, r.2, r.1⟩ :: moves m r.1 is

/-- The state that a list of inputs leads to. -/
def final (m : Machine σ ι ο) : σ → List ι → σ
  | s, [] => s
  | s, i :: is =>
    match m s i with
    | none => final m s is
    | some r => final m r.1 is

variable {m : Machine σ ι ο}

theorem moves_append (s : σ) (is js : List ι) :
    m.moves s (is ++ js) = m.moves s is ++ m.moves (m.final s is) js := by
  induction is generalizing s with
  | nil => rfl
  | cons i is ih =>
    simp only [List.cons_append, moves, final]
    split
    · exact ih s
    · rw [ih, List.cons_append]

theorem final_append (s : σ) (is js : List ι) :
    m.final s (is ++ js) = m.final (m.final s is) js := by
  induction is generalizing s with
  | nil => rfl
  | cons i is ih =>
    simp only [List.cons_append, final]
    split
    · exact ih s
    · exact ih _

/-- The rule for runs: an invariant of history and state that holds at the start and is
kept by each move holds after every list of inputs. -/
theorem invariant {I : List (Move σ ι ο) → σ → Prop} {s : σ} (hstart : I [] s)
    (hmove : ∀ past t i t' out, I past t → m t i = some (t', out) →
      I (past ++ [⟨t, i, out, t'⟩]) t')
    (is : List ι) : I (m.moves s is) (m.final s is) := by
  induction is using List.reverseRecOn with
  | nil => exact hstart
  | append_singleton is i ih =>
    rw [moves_append, final_append]
    cases h : m (m.final s is) i with
    | none => simpa [moves, final, h] using ih
    | some r => simpa [moves, final, h] using hmove _ _ _ _ _ ih h

/-- The rule for the moves of a run: each of them is made by the machine, in a state in
which the invariant holds of the moves before it. -/
theorem invariant_before {I : List (Move σ ι ο) → σ → Prop} {s : σ} (hstart : I [] s)
    (hmove : ∀ past t i t' out, I past t → m t i = some (t', out) →
      I (past ++ [⟨t, i, out, t'⟩]) t')
    {is : List ι} {past future : List (Move σ ι ο)} {v : Move σ ι ο}
    (h : m.moves s is = past ++ v :: future) :
    I past v.before ∧ m v.before v.input = some (v.after, v.out) := by
  have hall := invariant (m := m) (s := s)
    (I := fun ms t => I ms t ∧ ∀ past v future, ms = past ++ v :: future →
      I past v.before ∧ m v.before v.input = some (v.after, v.out))
    ⟨hstart, by simp⟩ ?_ is
  · exact hall.2 past v future h
  · rintro past' t i t' out ⟨hI, hpast⟩ hm
    refine ⟨hmove _ _ _ _ _ hI hm, fun past v future heq => ?_⟩
    rcases List.eq_nil_or_concat future with rfl | ⟨future, last, rfl⟩
    · -- the move is the last one
      obtain ⟨rfl, hv⟩ := List.append_inj' heq rfl
      cases hv
      exact ⟨hI, hm⟩
    · rw [List.concat_eq_append, ← List.cons_append, ← List.append_assoc] at heq
      obtain ⟨rfl, -⟩ := List.append_inj' heq rfl
      exact hpast past v future rfl

end Machine

end Transition

end ClickhouseArrow
