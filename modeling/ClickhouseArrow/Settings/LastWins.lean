import Mathlib.Logic.Function.Basic
import Mathlib.Data.List.Basic

/-!
# Writes in order, the last one wins

A list of writes changes a map from keys to values.  What a key has afterwards is its last
write, and where it has none, what it had before.  From this follows when writes can be left
out of the list unnoticed.
-/

namespace LastWins

variable {κ ν : Type} [DecidableEq κ]

/-- The values after the writes. -/
def apply (values : κ → Option ν) (writes : List (κ × ν)) : κ → Option ν :=
  writes.foldl (fun values w => Function.update values w.1 (some w.2)) values

/-- The last write to the key. -/
def lastWrite (writes : List (κ × ν)) (k : κ) : Option (κ × ν) :=
  writes.reverse.find? fun w => w.1 = k

theorem apply_append (values : κ → Option ν) (ws ws' : List (κ × ν)) :
    apply values (ws ++ ws') = apply (apply values ws) ws' :=
  List.foldl_append

theorem lastWrite_cons (w : κ × ν) (ws : List (κ × ν)) (k : κ) :
    lastWrite (w :: ws) k = (lastWrite ws k).or (if w.1 = k then some w else none) := by
  rw [lastWrite, List.reverse_cons, List.find?_append, List.find?_singleton, lastWrite]
  simp only [decide_eq_true_eq]

/-- **The last write wins.** -/
theorem apply_eq (values : κ → Option ν) (ws : List (κ × ν)) (k : κ) :
    apply values ws k = ((lastWrite ws k).map Prod.snd).or (values k) := by
  induction ws generalizing values with
  | nil => rfl
  | cons w ws ih =>
      show apply (Function.update values w.1 (some w.2)) ws k = _
      rw [ih, lastWrite_cons]
      cases lastWrite ws k with
      | some last => rfl
      | none =>
          by_cases hk : w.1 = k
          · subst hk
            simp
          · simp [hk, Ne.symm hk]

theorem lastWrite_mem {ws : List (κ × ν)} {k : κ} {w : κ × ν} (h : lastWrite ws k = some w) :
    w ∈ ws ∧ w.1 = k :=
  ⟨List.mem_reverse.mp (List.mem_of_find?_eq_some h), by simpa using List.find?_some h⟩

theorem lastWrite_eq_none_iff {ws : List (κ × ν)} {k : κ} :
    lastWrite ws k = none ↔ ∀ w ∈ ws, w.1 ≠ k := by
  rw [lastWrite, List.find?_eq_none]
  simp

section Filter

variable {keep : κ × ν → Bool}

/-- The last write stays the last one where it is kept. -/
theorem lastWrite_filter_of_keep {ws : List (κ × ν)} {k : κ} {w : κ × ν}
    (h : lastWrite ws k = some w) (hkeep : keep w = true) :
    lastWrite (ws.filter keep) k = some w := by
  induction ws with
  | nil => cases h
  | cons head ws ih =>
      rw [lastWrite_cons] at h
      rw [List.filter_cons]
      cases hlast : lastWrite ws k with
      | some last =>
          rw [hlast] at h
          have hrest := ih (hlast.trans h)
          split_ifs with hhead
          · rw [lastWrite_cons, hrest]
            rfl
          · exact hrest
      | none =>
          rw [hlast, Option.none_or] at h
          split_ifs at h with hk
          · obtain rfl := Option.some.inj h
            have hnone : lastWrite (ws.filter keep) k = none :=
              lastWrite_eq_none_iff.mpr fun w hw =>
                lastWrite_eq_none_iff.mp hlast w (List.mem_of_mem_filter hw)
            rw [if_pos hkeep, lastWrite_cons, hnone, if_pos hk, Option.none_or]

/-- **When writes can be left out.**  A key notices nothing exactly when its last write is
kept, or none of its writes is and it had the value of the last one already. -/
theorem apply_filter_eq_iff (values : κ → Option ν) (ws : List (κ × ν)) (k : κ) :
    apply values (ws.filter keep) k = apply values ws k ↔
      ∀ w, lastWrite ws k = some w → keep w = false →
        (∀ w' ∈ ws, w'.1 = k → keep w' = false) ∧ values k = some w.2 := by
  rw [apply_eq, apply_eq]
  cases hlast : lastWrite ws k with
  | none =>
      have hnone : lastWrite (ws.filter keep) k = none :=
        lastWrite_eq_none_iff.mpr fun w hw =>
          lastWrite_eq_none_iff.mp hlast w (List.mem_of_mem_filter hw)
      rw [hnone]
      exact iff_of_true rfl fun w h => absurd h (by simp)
  | some w =>
      cases hkeep : keep w with
      | true =>
          rw [lastWrite_filter_of_keep hlast hkeep]
          refine iff_of_true rfl fun w' h hdrop => ?_
          obtain rfl := Option.some.inj h
          exact absurd (hkeep.symm.trans hdrop) (by decide)
      | false =>
          constructor
          · intro heq w' h _
            obtain rfl := Option.some.inj h
            -- A write of the same value to the same key is the same write, so it is not kept.
            cases hkept : lastWrite (ws.filter keep) k with
            | some kept =>
                rw [hkept] at heq
                obtain ⟨hmem, hkey⟩ := lastWrite_mem hkept
                have hvalue : kept.2 = w.2 := Option.some.inj heq
                have hsame : kept = w := Prod.ext (hkey.trans (lastWrite_mem hlast).2.symm) hvalue
                have hdropped := List.of_mem_filter hmem
                rw [hsame, hkeep] at hdropped
                cases hdropped
            | none =>
                rw [hkept] at heq
                refine ⟨fun w' hw' hk => ?_, heq⟩
                by_contra hdrop
                have hmem := List.mem_filter.mpr ⟨hw', Bool.not_eq_false _ |>.mp hdrop⟩
                exact lastWrite_eq_none_iff.mp hkept w' hmem hk
          · intro h
            obtain ⟨hall, hvalue⟩ := h w rfl hkeep
            have hnone : lastWrite (ws.filter keep) k = none := by
              refine lastWrite_eq_none_iff.mpr fun w' hw' hk => ?_
              have hdropped := List.of_mem_filter hw'
              rw [hall w' (List.mem_of_mem_filter hw') hk] at hdropped
              cases hdropped
            rw [hnone, hvalue]
            rfl

end Filter

end LastWins
