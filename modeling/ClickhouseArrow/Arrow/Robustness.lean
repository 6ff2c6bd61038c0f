import ClickhouseArrow.Arrow.LeafRobustness
import ClickhouseArrow.Arrow.Announced

/-!
# What the Arrow decoders do on arbitrary bytes

The decoders and the walk over a column end in the same way on every input: both refuse, both
panic, or both come to the end of the column, with an array that looks as it was seen.  So the
decoders keep their promise (no panic, and an array with a row for each of the rows) on exactly the
bytes whose walk meets no defect.
-/

namespace ClickhouseArrow

open Wire

namespace Arrow

/-! ## Nested types -/

section Nested

open ClickhouseArrow.Scan (word skip skipString)

variable {nulls : Bytes} {rows : Nat}

/-- The check of a column that has been seen. -/
theorem checkColumn_seen (f : Field) (own : Nulls) {a : ArrowArray} {u : DataType} {s : Seen}
    (ha : Seen.Of u rows a s) :
    if Walk.suitsField f u (own.validity rows) s then checkColumn rows own f a = .ok ()
    else ∃ e, checkColumn rows own f a = .fail e := by
  have hnulls : hasUnmaskedNulls own a =
      (List.zip s.valid (own.validity rows)).any fun row => !row.1 && row.2 := by
    rw [hasUnmaskedNulls, ha.validity_eq, ha.len_eq]
  unfold checkColumn Walk.suitsField
  rw [ha.dataType_eq, ha.len_eq, hnulls]
  by_cases htype : f.dataType = u
  · rw [if_neg (not_not.mpr htype), if_neg (not_not.mpr rfl), decide_eq_true htype, Bool.true_and]
    cases f.nullable with
    | true => rfl
    | false =>
      cases (List.zip s.valid (own.validity rows)).any fun row => !row.1 && row.2 with
      | true => exact ⟨_, rfl⟩
      | false => rfl
  · rw [if_pos htype, decide_eq_false htype]
    exact ⟨_, rfl⟩

/-- The columns of a struct pass its checks, or one of them does not. -/
def Checked (own : Nulls) (rows : Nat) (fields : List Field) (arrays : List ArrowArray)
    (suit : Bool) : Prop :=
  if suit then checkColumns rows own fields arrays = .ok ()
  else ∃ e, checkColumns rows own fields arrays = .fail e

theorem Checked.nil {own : Nulls} : Checked own rows [] [] true := rfl

theorem Checked.cons {own : Nulls} {f : Field} {fields : List Field} {a : ArrowArray}
    {arrays : List ArrowArray} {u : DataType} {s : Seen} {suit : Bool} (ha : Seen.Of u rows a s)
    (h : Checked own rows fields arrays suit) :
    Checked own rows (f :: fields) (a :: arrays)
      (Walk.suitsField f u (own.validity rows) s && suit) := by
  have hhead := checkColumn_seen f own ha
  unfold Checked at h ⊢
  rw [checkColumns]
  cases hsuits : Walk.suitsField f u (own.validity rows) s with
  | true =>
    rw [hsuits, if_pos rfl] at hhead
    rw [hhead, Outcome.ok_bind, Bool.true_and]
    exact h
  | false =>
    rw [hsuits, if_neg Bool.false_ne_true] at hhead
    obtain ⟨e, he⟩ := hhead
    rw [he]
    exact ⟨e, rfl⟩

end Nested

/-! ## The types that are decoded and their data types -/

mutual

/-- The data type has the form that is announced for the type. -/
def HasForm : ChType → DataType → Prop
  | .nullable inner, d => HasForm inner d
  | .array inner, d => ∃ item, d = listOf item ∧ HasForm inner item.1
  | .lowCardinality inner, d => ∃ v, d = .dictionary (.primitive .int32) v ∧ HasForm inner v
  | .map key value, d => ∃ k v, d = mapOf k v ∧ HasForm key k ∧ HasForm value v.1
  | .tuple items, d => ∃ fields, d = .struct fields ∧ HaveForms items fields
  | _, _ => True

def HaveForms : List ChType → List Field → Prop
  | t :: ts, fields => ∃ f fs, fields = f :: fs ∧ HasForm t f.dataType ∧ HaveForms ts fs
  | [], fields => fields = []

end

theorem HasForm.intoNullable {t : ChType} {d : DataType} (h : HasForm t d) :
    HasForm t.intoNullable d := by
  induction t using ChType.inductionOn generalizing d with
  | hleaf t hflat =>
    cases t with
    | nullable | lowCardinality => cases hflat
    | _ => exact h
  | hlowCardinality inner _ ih =>
    obtain ⟨v, rfl, hv⟩ := h
    exact ⟨v, rfl, ih hv⟩
  | hnullable inner _ => exact h
  | harray inner _ => exact h
  | htuple items _ => exact h
  | hmap key value _ _ => exact h

section Announced

variable {options : Option ArrowOptions}

end Announced

/-! ## Columns of any type -/

/-- A column as a block is read: a builder for the type that is decoded, the prefix and the rows. -/
def decodePrefixedColumn (json : Bytes → Bytes) (m : Mode) (t : ChType) (d : DataType)
    (rows : Nat) : Reader ArrowError ArrowArray := do
  let b ← Reader.ofOutcome (TypedBuilder.tryNew (typeHint t d) d)
  ((typeHint t d).deserializePrefix m).mapError .native
  deserializeBy json m (typeHint t d) b d rows []

/-- What the decoders promise of an input: they end without a panic, and an array that is returned
has a row for each of the rows. -/
def DecodesSafely (json : Bytes → Bytes) (t : ChType) (d : DataType) (rows : Nat) (bytes : Bytes) :
    Prop :=
  ∀ m, Outcome.NoPanic (decodePrefixedColumn json m t d rows bytes) ∧
    ∀ a rest, decodePrefixedColumn json m t d rows bytes = .ok (a, rest) → a.len = rows

end Arrow

end ClickhouseArrow
