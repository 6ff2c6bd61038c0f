import ClickhouseArrow.Native.Types
import ClickhouseArrow.Wire.Layout
import Mathlib.Tactic.Common

/-!
# Equality and hashing of values

`PartialEq` and `Hash` of `native/values.rs`, and the set of keys of a dictionary that rests on
them.  The equality of a list of values is `eqPointwise`, so one lemma about a list carries arrays,
tuples, maps and the three nested shapes.
-/

namespace ClickhouseArrow

open Wire

/-! ## Tests that decide equality -/

section Pointwise

variable {α : Type}

/-- The test tells an entry from everything else. -/
def Tells (eq : α → α → Bool) (a : α) : Prop := ∀ b, eq a b = true ↔ a = b

variable {eq : α → α → Bool}

theorem eqPointwise_self_iff {as : List α} :
    eqPointwise eq as as = true ↔ ∀ a ∈ as, eq a a = true := by
  induction as with
  | nil => simp [eqPointwise]
  | cons a as ih => simp [eqPointwise, ih]

/-- One entry of a list that compares equal to itself may be replaced by an equal one. -/
theorem eqPointwise_replace {before after : List α} {a b : α}
    (hself : ∀ x ∈ before ++ a :: after, eq x x = true) (h : eq a b = true) :
    eqPointwise eq (before ++ a :: after) (before ++ b :: after) = true := by
  induction before with
  | nil =>
    have hafter : eqPointwise eq after after = true :=
      eqPointwise_self_iff.mpr fun x hx => hself x (by simp [hx])
    simp [eqPointwise, h, hafter]
  | cons x before ih =>
    have hx : eq x x = true := hself x (by simp)
    have hrest := ih fun y hy => hself y (List.mem_cons_of_mem x hy)
    simp [eqPointwise, hx, hrest]

/-- A list is told from every other one exactly when each of its entries is. -/
theorem tells_eqPointwise_iff {as : List α} :
    Tells (eqPointwise eq) as ↔ ∀ a ∈ as, Tells eq a := by
  constructor
  · intro h a ha b
    have hself : ∀ x ∈ as, eq x x = true := eqPointwise_self_iff.mp ((h as).mpr rfl)
    constructor
    · intro heq
      obtain ⟨before, after, rfl⟩ := List.append_of_mem ha
      have hlists := (h (before ++ b :: after)).mp (eqPointwise_replace hself heq)
      simpa using hlists
    · rintro rfl
      exact hself a ha
  · intro h
    induction as with
    | nil =>
      intro bs
      cases bs <;> simp [eqPointwise]
    | cons a as ih =>
      intro bs
      cases bs with
      | nil => simp [eqPointwise]
      | cons b bs =>
        have hhead := h a List.mem_cons_self b
        have htail := ih (fun x hx => h x (List.mem_cons_of_mem a hx)) bs
        simp [eqPointwise, hhead, htail]

theorem eqPointwise_symm {as bs : List α} (hsymm : ∀ a ∈ as, ∀ b, eq a b = true → eq b a = true)
    (h : eqPointwise eq as bs = true) : eqPointwise eq bs as = true := by
  induction as generalizing bs with
  | nil => cases bs <;> simp_all [eqPointwise]
  | cons a as ih =>
    cases bs with
    | nil => simp [eqPointwise] at h
    | cons b bs =>
      rw [eqPointwise, Bool.and_eq_true] at h ⊢
      exact ⟨hsymm a List.mem_cons_self b h.1,
        ih (fun x hx => hsymm x (List.mem_cons_of_mem a hx)) h.2⟩

end Pointwise

/-! ## Coordinates -/

/-- Neither a NaN nor a zero. -/
def Float64.isDefinite (x : UInt64) : Bool :=
  (x &&& 0x7FFFFFFFFFFFFFFF) ≤ 0x7FF0000000000000 && (x &&& 0x7FFFFFFFFFFFFFFF) != 0

/-- Both coordinates are neither a NaN nor a zero. -/
def Point.isDefinite (p : Point) : Bool := Float64.isDefinite p.x && Float64.isDefinite p.y

/-- The number with the other sign. -/
def Float64.flipSign (x : UInt64) : UInt64 := x ^^^ 0x8000000000000000

theorem Float64.flipSign_ne (x : UInt64) : x ≠ Float64.flipSign x := by
  intro h
  have hbits := congrArg UInt64.toBitVec h
  have hlast := congrArg (fun b : BitVec 64 => b.getLsbD 63) hbits
  simp [Float64.flipSign] at hlast

theorem Float64.flipSign_magnitude (x : UInt64) :
    Float64.flipSign x &&& 0x7FFFFFFFFFFFFFFF = x &&& 0x7FFFFFFFFFFFFFFF := by
  apply UInt64.toBitVec_inj.mp
  simp only [Float64.flipSign, UInt64.toBitVec_and, UInt64.toBitVec_xor]
  ext i hi
  have hmask : ((0x8000000000000000 : UInt64).toBitVec &&& (0x7FFFFFFFFFFFFFFF : UInt64).toBitVec) =
    0#64 := by decide
  have hbit := congrArg (fun b : BitVec 64 => b.getLsbD i) hmask
  simp only [BitVec.getLsbD_and, BitVec.getLsbD_zero] at hbit
  simp only [BitVec.getElem_and, BitVec.getElem_xor]
  rw [← BitVec.getLsbD_eq_getElem, ← BitVec.getLsbD_eq_getElem, ← BitVec.getLsbD_eq_getElem]
  grind

/-- A coordinate is told from every other one exactly when it is definite. -/
theorem Float64.tells_eqBits_iff (x : UInt64) :
    Tells Float64.eqBits x ↔ Float64.isDefinite x = true := by
  constructor
  · intro h
    have hself := (h x).mpr rfl
    have hflip : Float64.eqBits x (Float64.flipSign x) ≠ true :=
      fun heq => Float64.flipSign_ne x ((h _).mp heq)
    simp only [Float64.eqBits, Float64.flipSign_magnitude] at hself hflip
    simp only [Float64.isDefinite]
    grind
  · intro h y
    simp only [Float64.isDefinite] at h
    simp only [Float64.eqBits]
    grind

/-- A point with a fixed second coordinate, and one with a fixed first coordinate. -/
theorem Point.tells_iff (p : Point) : Tells Point.eqCoordinates p ↔ p.isDefinite = true := by
  rw [Point.isDefinite, Bool.and_eq_true, ← Float64.tells_eqBits_iff, ← Float64.tells_eqBits_iff]
  constructor
  · intro h
    have hself := (h p).mpr rfl
    rw [Point.eqCoordinates, Bool.and_eq_true] at hself
    constructor
    · intro x
      have hx := h ⟨x, p.y⟩
      rw [Point.eqCoordinates, hself.2, Bool.and_true, Point.mk.injEq] at hx
      simpa using hx
    · intro y
      have hy := h ⟨p.x, y⟩
      rw [Point.eqCoordinates, hself.1, Bool.true_and, Point.mk.injEq] at hy
      simpa using hy
  · rintro ⟨hx, hy⟩ q
    rw [Point.eqCoordinates, Bool.and_eq_true, hx, hy, ← Point.mk.injEq]

theorem Float64.eqBits_symm {x y : UInt64} (h : Float64.eqBits x y = true) :
    Float64.eqBits y x = true := by
  simp only [Float64.eqBits] at h ⊢
  grind

theorem Point.eqCoordinates_symm {p q : Point} (h : p.eqCoordinates q = true) :
    q.eqCoordinates p = true := by
  rw [Point.eqCoordinates, Bool.and_eq_true] at h ⊢
  exact ⟨Float64.eqBits_symm h.1, Float64.eqBits_symm h.2⟩

/-! ## Values -/

namespace Value

/-- No object, and no coordinate that is a NaN or a zero. -/
def isDefinite : Value → Bool
  | .array items => definiteList items
  | .tuple items => definiteList items
  | .map keys values => definiteList keys && definiteList values
  | .point p => p.isDefinite
  | .ring r => r.all Point.isDefinite
  | .polygon p => p.all fun r => r.all Point.isDefinite
  | .multiPolygon m => m.all fun p => p.all fun r => r.all Point.isDefinite
  | .object _ => false
  | _ => true
where
  definiteList : List Value → Bool
    | [] => true
    | v :: vs => v.isDefinite && definiteList vs

theorem definiteList_iff {vs : List Value} :
    isDefinite.definiteList vs = true ↔ ∀ v ∈ vs, v.isDefinite = true := by
  induction vs with
  | nil => simp [isDefinite.definiteList]
  | cons v vs ih => simp [isDefinite.definiteList, ih]

theorem eqList_eq_eqPointwise : ∀ ls rs : List Value, eqList ls rs = eqPointwise eq ls rs
  | [], [] => rfl
  | [], _ :: _ => rfl
  | _ :: _, [] => rfl
  | l :: ls, r :: rs => by rw [eqList, eqPointwise, eqList_eq_eqPointwise ls rs]

/-- Holds no value, no point and no object. -/
def isScalar : Value → Bool
  | .array _ | .tuple _ | .map _ _ | .point _ | .ring _ | .polygon _ | .multiPolygon _
  | .object _ => false
  | _ => true

/-- Induction over a value, with the components of an array, a tuple or a map at hand. -/
@[elab_as_elim]
theorem inductionOn {P : Value → Prop} (v : Value)
    (hflat : ∀ v, (∀ items, v ≠ .array items) → (∀ items, v ≠ .tuple items) →
      (∀ keys values, v ≠ .map keys values) → P v)
    (harray : ∀ items, (∀ v ∈ items, P v) → P (.array items))
    (htuple : ∀ items, (∀ v ∈ items, P v) → P (.tuple items))
    (hmap : ∀ keys values, (∀ v ∈ keys, P v) → (∀ v ∈ values, P v) → P (.map keys values)) :
    P v := by
  apply @Value.rec P fun vs => ∀ v ∈ vs, P v
  case array => exact harray
  case tuple => exact htuple
  case map => exact hmap
  case nil => simp
  case cons =>
    intro head tail hhead htail v hv
    rcases List.mem_cons.mp hv with rfl | hmem
    · exact hhead
    · exact htail v hmem
  all_goals
    intros
    apply hflat <;> simp

/-- A scalar is told from every other value. -/
theorem tells_of_isScalar {v : Value} (h : v.isScalar = true) : Tells eq v := by
  intro b
  constructor
  · intro heq
    unfold eq at heq
    split at heq
    all_goals first
      | exact absurd h Bool.false_ne_true
      | exact absurd heq Bool.false_ne_true
      | rfl
      | rw [eq_of_beq heq]
      | (obtain ⟨hleft, hright⟩ := Bool.and_eq_true_iff.mp heq
         rw [eq_of_beq hleft, eq_of_beq hright])
      | simp_all
  · rintro rfl
    cases v
    all_goals first
      | exact absurd h Bool.false_ne_true
      | exact beq_self_eq_true _
      | simp [eq]

/-! A value that holds others is equal only to values of its own constructor. -/

theorem of_array_eq {items : List Value} {b : Value} (h : eq (.array items) b = true) :
    ∃ others, b = .array others := by
  cases b
  all_goals first
    | exact ⟨_, rfl⟩
    | exact absurd h Bool.false_ne_true

theorem of_tuple_eq {items : List Value} {b : Value} (h : eq (.tuple items) b = true) :
    ∃ others, b = .tuple others := by
  cases b
  all_goals first
    | exact ⟨_, rfl⟩
    | exact absurd h Bool.false_ne_true

theorem of_map_eq {keys values : List Value} {b : Value} (h : eq (.map keys values) b = true) :
    ∃ keys' values', b = .map keys' values' := by
  cases b
  all_goals first
    | exact ⟨_, _, rfl⟩
    | exact absurd h Bool.false_ne_true

theorem of_point_eq {p : Point} {b : Value} (h : eq (.point p) b = true) : ∃ q, b = .point q := by
  cases b
  all_goals first
    | exact ⟨_, rfl⟩
    | exact absurd h Bool.false_ne_true

theorem of_ring_eq {r : List Point} {b : Value} (h : eq (.ring r) b = true) :
    ∃ r', b = .ring r' := by
  cases b
  all_goals first
    | exact ⟨_, rfl⟩
    | exact absurd h Bool.false_ne_true

theorem of_polygon_eq {p : List (List Point)} {b : Value} (h : eq (.polygon p) b = true) :
    ∃ p', b = .polygon p' := by
  cases b
  all_goals first
    | exact ⟨_, rfl⟩
    | exact absurd h Bool.false_ne_true

theorem of_multiPolygon_eq {m : List (List (List Point))} {b : Value}
    (h : eq (.multiPolygon m) b = true) : ∃ m', b = .multiPolygon m' := by
  cases b
  all_goals first
    | exact ⟨_, rfl⟩
    | exact absurd h Bool.false_ne_true

theorem of_object_eq {bytes : Bytes} {b : Value} (h : eq (.object bytes) b = true) :
    ∃ bytes', b = .object bytes' := by
  cases b
  all_goals first
    | exact ⟨_, rfl⟩
    | exact absurd h Bool.false_ne_true

/-- A value that is made of other data is told from every other value exactly when the data is. -/
theorem tells_make_iff {β : Type} {make : β → Value} {same : β → β → Bool} {x : β}
    (hmake : ∀ y, make x = make y ↔ x = y) (heq : ∀ y, eq (make x) (make y) = same x y)
    (hother : ∀ b, eq (make x) b = true → ∃ y, b = make y) :
    Tells eq (make x) ↔ Tells same x := by
  constructor
  · intro h y
    rw [← heq, h, hmake]
  · intro h b
    constructor
    · intro hb
      obtain ⟨y, rfl⟩ := hother b hb
      rw [hmake, ← h, ← heq, hb]
    · rintro rfl
      rw [heq, h]

theorem tells_array_iff {items : List Value} :
    Tells eq (.array items) ↔ Tells (eqPointwise eq) items := by
  apply tells_make_iff
  · simp
  · exact fun others => eqList_eq_eqPointwise items others
  · exact fun _ => of_array_eq

theorem tells_tuple_iff {items : List Value} :
    Tells eq (.tuple items) ↔ Tells (eqPointwise eq) items := by
  apply tells_make_iff
  · simp
  · exact fun others => eqList_eq_eqPointwise items others
  · exact fun _ => of_tuple_eq

theorem map_eq_map {keys values keys' values' : List Value} :
    eq (.map keys values) (.map keys' values') =
      (eqPointwise eq keys keys' && eqPointwise eq values values') := by
  rw [← eqList_eq_eqPointwise, ← eqList_eq_eqPointwise]
  rfl

theorem tells_map_iff {keys values : List Value} :
    Tells eq (.map keys values) ↔ Tells (eqPointwise eq) keys ∧ Tells (eqPointwise eq) values := by
  constructor
  · intro h
    have hself := (h (.map keys values)).mpr rfl
    rw [map_eq_map, Bool.and_eq_true] at hself
    constructor
    · intro others
      have hkeys := h (.map others values)
      rw [map_eq_map, hself.2, Bool.and_true] at hkeys
      simpa using hkeys
    · intro others
      have hvalues := h (.map keys others)
      rw [map_eq_map, hself.1, Bool.true_and] at hvalues
      simpa using hvalues
  · rintro ⟨hkeys, hvalues⟩ b
    constructor
    · intro hb
      obtain ⟨keys', values', rfl⟩ := of_map_eq hb
      rw [map_eq_map, Bool.and_eq_true, hkeys, hvalues] at hb
      rw [hb.1, hb.2]
    · rintro rfl
      rw [map_eq_map, Bool.and_eq_true, hkeys, hvalues]
      exact ⟨rfl, rfl⟩

theorem tells_point_iff {p : Point} : Tells eq (.point p) ↔ Tells Point.eqCoordinates p := by
  apply tells_make_iff
  · simp
  · exact fun _ => rfl
  · exact fun _ => of_point_eq

theorem tells_ring_iff {r : List Point} :
    Tells eq (.ring r) ↔ Tells (eqPointwise Point.eqCoordinates) r := by
  apply tells_make_iff
  · simp
  · exact fun _ => rfl
  · exact fun _ => of_ring_eq

theorem tells_polygon_iff {p : List (List Point)} :
    Tells eq (.polygon p) ↔ Tells (eqPointwise (eqPointwise Point.eqCoordinates)) p := by
  apply tells_make_iff
  · simp
  · exact fun _ => rfl
  · exact fun _ => of_polygon_eq

theorem tells_multiPolygon_iff {m : List (List (List Point))} :
    Tells eq (.multiPolygon m) ↔
      Tells (eqPointwise (eqPointwise (eqPointwise Point.eqCoordinates))) m := by
  apply tells_make_iff
  · simp
  · exact fun _ => rfl
  · exact fun _ => of_multiPolygon_eq

/-- Another object of the same value. -/
theorem not_tells_object (bytes : Bytes) : ¬ Tells eq (.object bytes) := by
  intro h
  have hlonger := (h (.object (0 :: bytes))).mp rfl
  simp at hlonger

/-- The equality tells exactly the definite values from every other one. -/
theorem tells_eq_iff (v : Value) : Tells eq v ↔ v.isDefinite = true := by
  induction v using inductionOn with
  | harray items ih =>
    rw [tells_array_iff, tells_eqPointwise_iff, isDefinite, definiteList_iff]
    exact forall₂_congr ih
  | htuple items ih =>
    rw [tells_tuple_iff, tells_eqPointwise_iff, isDefinite, definiteList_iff]
    exact forall₂_congr ih
  | hmap keys values ihkeys ihvalues =>
    rw [tells_map_iff, tells_eqPointwise_iff, tells_eqPointwise_iff, isDefinite, Bool.and_eq_true,
      definiteList_iff, definiteList_iff]
    exact and_congr (forall₂_congr ihkeys) (forall₂_congr ihvalues)
  | hflat v harray htuple hmap =>
    cases v with
    | array items => exact absurd rfl (harray items)
    | tuple items => exact absurd rfl (htuple items)
    | map keys values => exact absurd rfl (hmap keys values)
    | point p => rw [tells_point_iff, Point.tells_iff, isDefinite]
    | ring r =>
      simp only [tells_ring_iff, tells_eqPointwise_iff, Point.tells_iff, isDefinite, List.all_eq_true]
    | polygon p =>
      simp only [tells_polygon_iff, tells_eqPointwise_iff, Point.tells_iff, isDefinite,
        List.all_eq_true]
    | multiPolygon m =>
      simp only [tells_multiPolygon_iff, tells_eqPointwise_iff, Point.tells_iff, isDefinite,
        List.all_eq_true]
    | object bytes =>
      constructor
      · exact fun h => absurd h (not_tells_object bytes)
      · exact fun h => absurd h Bool.false_ne_true
    | _ =>
      constructor
      · exact fun _ => rfl
      · exact fun _ => tells_of_isScalar rfl

/-! ## Equality, hashing and dictionaries -/

/-- What equality is to be at a value: it holds of the value and of nothing else, as an
equivalence does; equal values feed the hasher the same; and a set of keys finds the value where it
is and nowhere else. -/
structure EqualityIsStructural (a : Value) : Prop where
  iff_eq : ∀ b, a.eq b = true ↔ a = b
  refl : a.eq a = true
  symm : ∀ b, a.eq b = b.eq a
  trans : ∀ b c, a.eq b = true → b.eq c = true → a.eq c = true
  hash : ∀ b, a.eq b = true → a.hash = b.hash
  found : ∀ keys i, indexOfKey sameKey keys a = some i → keys[i]? = some a
  known : ∀ keys, a ∈ keys → ∃ i, indexOfKey sameKey keys a = some i

theorem eq_symm {a b : Value} (h : eq a b = true) : eq b a = true := by
  induction a using inductionOn generalizing b with
  | harray items ih =>
    obtain ⟨others, rfl⟩ := of_array_eq h
    replace h : eqList items others = true := h
    show eqList others items = true
    rw [eqList_eq_eqPointwise] at h ⊢
    exact eqPointwise_symm ih h
  | htuple items ih =>
    obtain ⟨others, rfl⟩ := of_tuple_eq h
    replace h : eqList items others = true := h
    show eqList others items = true
    rw [eqList_eq_eqPointwise] at h ⊢
    exact eqPointwise_symm ih h
  | hmap keys values ihkeys ihvalues =>
    obtain ⟨keys', values', rfl⟩ := of_map_eq h
    rw [map_eq_map, Bool.and_eq_true] at h ⊢
    exact ⟨eqPointwise_symm ihkeys h.1, eqPointwise_symm ihvalues h.2⟩
  | hflat v harray htuple hmap =>
    have hpoints : ∀ {r r' : List Point}, eqPointwise Point.eqCoordinates r r' = true →
        eqPointwise Point.eqCoordinates r' r = true :=
      eqPointwise_symm fun _ _ _ => Point.eqCoordinates_symm
    have hrings : ∀ {p p' : List (List Point)},
        eqPointwise (eqPointwise Point.eqCoordinates) p p' = true →
        eqPointwise (eqPointwise Point.eqCoordinates) p' p = true :=
      eqPointwise_symm fun _ _ _ => hpoints
    cases v with
    | array items => exact absurd rfl (harray items)
    | tuple items => exact absurd rfl (htuple items)
    | map keys values => exact absurd rfl (hmap keys values)
    | point p =>
      obtain ⟨q, rfl⟩ := of_point_eq h
      exact Point.eqCoordinates_symm h
    | ring r =>
      obtain ⟨r', rfl⟩ := of_ring_eq h
      exact hpoints h
    | polygon p =>
      obtain ⟨p', rfl⟩ := of_polygon_eq h
      exact hrings h
    | multiPolygon m =>
      obtain ⟨m', rfl⟩ := of_multiPolygon_eq h
      exact eqPointwise_symm (fun _ _ _ => hrings) h
    | object bytes =>
      obtain ⟨bytes', rfl⟩ := of_object_eq h
      rfl
    | _ =>
      obtain rfl := (tells_of_isScalar rfl _).mp h
      exact h

/-- **Equality is structural exactly at the values without objects, and without coordinates that
are zero or no number.** -/
theorem equalityIsStructural_iff (a : Value) : EqualityIsStructural a ↔ a.isDefinite = true := by
  rw [← tells_eq_iff]
  constructor
  · exact fun h => h.iff_eq
  · intro h
    have hself : a.eq a = true := (h a).mpr rfl
    have hleft (b : Value) : b.eq a = true ↔ b = a := by
      constructor
      · exact fun hba => ((h b).mp (eq_symm hba)).symm
      · rintro rfl
        exact hself
    have hkey : DecidesEq sameKey [a] := by
      intro v hv k
      obtain rfl := List.mem_singleton.mp hv
      rw [sameKey, Bool.and_eq_true, hleft]
      constructor
      · exact fun hboth => hboth.2
      · rintro rfl
        exact ⟨beq_self_eq_true _, rfl⟩
    constructor
    · exact h
    · exact hself
    · intro b
      rw [Bool.eq_iff_iff, h, hleft]
      exact eq_comm
    · intro b c hab hbc
      rwa [(h b).mp hab]
    · intro b hab
      rw [(h b).mp hab]
    · intro keys i hi
      obtain ⟨hlt, hsame, -⟩ := List.findIdx?_eq_some_iff_getElem.mp hi
      rw [List.getElem?_eq_getElem hlt, (hkey a List.mem_cons_self _).mp hsame]
    · intro keys hmem
      obtain ⟨i, hi, -⟩ := exists_indexOfKey hkey List.mem_cons_self hmem
      exact ⟨i, hi⟩

/-- Two objects are equal and do not feed the hasher the same, a point without a number is not
equal to itself, and two points differ in the sign of a zero only. -/
theorem not_equalityIsStructural_samples :
    ¬ EqualityIsStructural (.object []) ∧
      ¬ EqualityIsStructural (.point ⟨0x7FF8000000000000, 0x3FF0000000000000⟩) ∧
      ¬ EqualityIsStructural (.point ⟨0, 0x3FF0000000000000⟩) := by
  refine ⟨fun h => ?_, fun h => ?_, fun h => ?_⟩
  · have hhash := h.hash (.object [0]) rfl
    simp [hash, hashBytes] at hhash
  · exact absurd h.refl (by decide)
  · have hsame := (h.iff_eq (.point ⟨0x8000000000000000, 0x3FF0000000000000⟩)).mp (by decide)
    simp at hsame

end Value

end ClickhouseArrow
