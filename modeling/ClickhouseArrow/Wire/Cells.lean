import ClickhouseArrow.Wire.Reader
import Mathlib.Data.List.Forall2

/-!
# Writing rows cell by cell

A writer turns every row into a cell of a fixed width, and stops at the first row that it
cannot write.  The fate of a row says which of the four things happens to it; from the fates
alone follows whether the writer, as a whole, either returns an error or writes a cell for
every row that says of it what it should.
-/

namespace Wire

/-- What becomes of a row: the writer returns an error, it aborts, the cell says what it
should, or the cell says something else. -/
inductive Fate
  | refused
  | overflows
  | kept
  | changed
  deriving DecidableEq, Repr

namespace Fate

variable {ε : Type}

/-- The row is written as its fate has it, where `P` is what the cell should say. -/
def Describes (width : Nat) (P : Bytes → Prop) : Fate → Outcome ε Bytes → Prop
  | .refused, o => ∃ e, o = .fail e
  | .overflows, o => ∃ p, o = .panic p
  | .kept, o => ∃ cell, o = .ok cell ∧ P cell
  | .changed, o => ∃ cell, o = .ok cell ∧ cell.length = width ∧ ¬ P cell

/-- A row is refused, and none before it aborts. -/
def Stopped : List Fate → Prop
  | [] => False
  | .refused :: _ => True
  | .overflows :: _ => False
  | .kept :: fates => Stopped fates
  | .changed :: fates => Stopped fates

def decideStopped : (fates : List Fate) → Decidable (Stopped fates)
  | [] => instDecidableFalse
  | .refused :: _ => instDecidableTrue
  | .overflows :: _ => instDecidableFalse
  | .kept :: fates => decideStopped fates
  | .changed :: fates => decideStopped fates

instance : DecidablePred Stopped := decideStopped

/-- The rows are refused, or every one is kept. -/
def Fare (fates : List Fate) : Prop := Stopped fates ∨ ∀ fate ∈ fates, fate = kept

instance : DecidablePred Fare := fun fates =>
  inferInstanceAs (Decidable (Stopped fates ∨ ∀ fate ∈ fates, fate = kept))

/-- A writer of a cell that is never refused. -/
theorem describes_ok {width : Nat} {P : Bytes → Prop} {o : Outcome ε Bytes} {cell : Bytes}
    {c : Prop} [Decidable c] (ho : o = .ok cell) (hwidth : cell.length = width)
    (hc : c ↔ P cell) : Describes width P (if c then .kept else .changed) o := by
  by_cases h : c
  · rw [if_pos h]
    exact ⟨cell, ho, hc.mp h⟩
  · rw [if_neg h]
    exact ⟨cell, ho, hwidth, fun hP => h (hc.mpr hP)⟩

end Fate

/-- The writer returns an error, or a cell for every row. -/
def Tells {ε ρ : Type} (P : ρ → Bytes → Prop) (rows : List ρ) (o : Outcome ε Bytes) : Prop :=
  (∃ e, o = .fail e) ∨ ∃ cells : List Bytes, o = .ok cells.flatten ∧ List.Forall₂ P rows cells

section Emit

variable {ε ρ : Type} {width : Nat} {P : ρ → Bytes → Prop} {fate : ρ → Fate}
  {step : ρ → Outcome ε Bytes}

theorem Outcome.emit_cons_ok {rows : List ρ} {row : ρ} {cell : Bytes} (h : step row = .ok cell) :
    Outcome.emit step (row :: rows) = (cell ++ ·) <$> Outcome.emit step rows := by
  rw [Outcome.emit, h]
  cases Outcome.emit step rows <;> rfl

/-- The writer returns an error exactly if a row is refused before any aborts. -/
theorem emit_fails_iff (hstep : ∀ row, (fate row).Describes width (P row) (step row))
    (rows : List ρ) :
    (∃ e, Outcome.emit step rows = .fail e) ↔ Fate.Stopped (rows.map fate) := by
  induction rows with
  | nil =>
    constructor
    · rintro ⟨e, he⟩
      exact absurd he (by simp [Outcome.emit, Outcome.fail])
    · exact False.elim
  | cons row rows ih =>
    have hrow := hstep row
    have hpass {cell : Bytes} (h : step row = .ok cell) :
        (∃ e, Outcome.emit step (row :: rows) = .fail e) ↔
          ∃ e, Outcome.emit step rows = .fail e := by
      rw [Outcome.emit_cons_ok h]
      cases Outcome.emit step rows with
      | ok bytes => simp [Outcome.fail]
      | error e => simp [Outcome.fail]
    rw [List.map_cons]
    cases hfate : fate row with
    | refused =>
      rw [hfate] at hrow
      obtain ⟨e, he⟩ := hrow
      exact ⟨fun _ => trivial, fun _ => ⟨e, by rw [Outcome.emit, he]; rfl⟩⟩
    | overflows =>
      rw [hfate] at hrow
      obtain ⟨p, hp⟩ := hrow
      constructor
      · rintro ⟨e, he⟩
        rw [Outcome.emit, hp] at he
        exact absurd he (by simp [Outcome.panic, Outcome.fail, bind, Except.bind])
      · exact False.elim
    | kept =>
      rw [hfate] at hrow
      obtain ⟨cell, hcell, -⟩ := hrow
      exact (hpass hcell).trans ih
    | changed =>
      rw [hfate] at hrow
      obtain ⟨cell, hcell, -⟩ := hrow
      exact (hpass hcell).trans ih

/-- Behind a row that is written, what the writer tells is what it tells of the other rows. -/
theorem tells_cons_iff (hwidth : ∀ row cell, P row cell → cell.length = width) {row : ρ}
    {rows : List ρ} {cell : Bytes} (hcell : step row = .ok cell) (hlength : cell.length = width) :
    Tells P (row :: rows) (Outcome.emit step (row :: rows)) ↔
      (∃ e, Outcome.emit step rows = .fail e) ∨
        P row cell ∧ Tells P rows (Outcome.emit step rows) := by
  rw [Outcome.emit_cons_ok hcell]
  cases hrest : Outcome.emit step rows with
  | error e =>
    constructor
    · rintro (⟨e', he'⟩ | ⟨cells, hcells, -⟩)
      · exact .inl ⟨e', he'⟩
      · exact absurd hcells (by simp)
    · rintro (⟨e', he'⟩ | ⟨-, ⟨e', he'⟩ | ⟨cells, hcells, -⟩⟩)
      · exact .inl ⟨e', he'⟩
      · exact .inl ⟨e', he'⟩
      · exact absurd hcells (by simp)
  | ok bytes =>
    constructor
    · rintro (⟨e, he⟩ | ⟨cells, hcells, hall⟩)
      · exact absurd he (by simp [Outcome.fail])
      · cases hall with
        | @cons _ first _ others hfirst hothers =>
          have happend : cell ++ bytes = first ++ others.flatten := Except.ok.inj hcells
          obtain ⟨hsame, hbytes⟩ :=
            List.append_inj happend (hlength.trans (hwidth row first hfirst).symm)
          exact .inr ⟨hsame ▸ hfirst, .inr ⟨others, by rw [hbytes], hothers⟩⟩
    · rintro (⟨e, he⟩ | ⟨hP, ⟨e, he⟩ | ⟨cells, hcells, hall⟩⟩)
      · exact absurd he (by simp [Outcome.fail])
      · exact absurd he (by simp [Outcome.fail])
      · refine .inr ⟨cell :: cells, ?_, .cons hP hall⟩
        rw [Except.ok.inj hcells]
        rfl

/-- **The fates of the rows decide what the writer tells.** -/
theorem tells_emit_iff (hwidth : ∀ row cell, P row cell → cell.length = width)
    (hstep : ∀ row, (fate row).Describes width (P row) (step row)) (rows : List ρ) :
    Tells P rows (Outcome.emit step rows) ↔ Fate.Fare (rows.map fate) := by
  induction rows with
  | nil => exact ⟨fun _ => .inr (by simp), fun _ => .inr ⟨[], rfl, .nil⟩⟩
  | cons row rows ih =>
    have hrow := hstep row
    have hfails := emit_fails_iff hstep rows
    have hall := emit_fails_iff hstep (row :: rows)
    rw [List.map_cons] at hall ⊢
    cases hfate : fate row with
    | refused =>
      rw [hfate] at hall
      exact ⟨fun _ => .inl trivial, fun _ => .inl (hall.mpr trivial)⟩
    | overflows =>
      rw [hfate] at hrow
      obtain ⟨p, hp⟩ := hrow
      have hpanic : Outcome.emit step (row :: rows) = .panic p := by
        rw [Outcome.emit, hp]
        rfl
      constructor
      · rintro (⟨e, he⟩ | ⟨cells, hcells, -⟩)
        · exact absurd (hpanic.symm.trans he) (by simp [Outcome.panic, Outcome.fail])
        · exact absurd (hpanic.symm.trans hcells) (by simp [Outcome.panic])
      · rintro (hstop | hkept)
        · exact hstop.elim
        · exact absurd (hkept _ List.mem_cons_self) (by decide)
    | kept =>
      rw [hfate] at hrow
      obtain ⟨cell, hcell, hP⟩ := hrow
      rw [tells_cons_iff hwidth hcell (hwidth _ _ hP), ih, hfails]
      constructor
      · rintro (hstop | ⟨-, hstop | hkept⟩)
        · exact .inl hstop
        · exact .inl hstop
        · exact .inr (List.forall_mem_cons.mpr ⟨rfl, hkept⟩)
      · rintro (hstop | hkept)
        · exact .inl hstop
        · exact .inr ⟨hP, .inr (List.forall_mem_cons.mp hkept).2⟩
    | changed =>
      rw [hfate] at hrow
      obtain ⟨cell, hcell, hlength, hP⟩ := hrow
      rw [tells_cons_iff hwidth hcell hlength, hfails]
      constructor
      · rintro (hstop | ⟨hyes, -⟩)
        · exact .inl hstop
        · exact absurd hyes hP
      · rintro (hstop | hkept)
        · exact .inl hstop
        · exact absurd (hkept _ List.mem_cons_self) (by decide)

end Emit

end Wire
