import ClickhouseArrow.Wire.Reader
import Mathlib.Data.List.TakeDrop
import Mathlib.Data.List.Forall2
import Mathlib.Algebra.BigOperators.Group.List.Basic
import Mathlib.Algebra.Order.Ring.Nat

/-!
# Nested data in flat columns

Three ways to lay nested data out in flat lists, each with the operation that takes
it apart again and the fact that the two are inverse.

- *End offsets*: a list of lists is stored as one flat list and the running totals of
  the lengths.
- *Columns of rows*: rows of one width are stored column by column.
- *Dictionaries*: a list of values is stored as the distinct values, in the order in
  which they first appear, and the position of each value among them.
-/

namespace Wire

variable {ε α β : Type}

/-! ## End offsets -/

/-- The running totals of `lens`, counted from `start`. -/
def endOffsets (start : Nat) : List Nat → List Nat
  | [] => []
  | n :: lens => (start + n) :: endOffsets (start + n) lens

/-- Cut a flat list at its end offsets; `prev` is the offset at which it begins.  The
difference of two offsets is computed as an unsigned number. -/
def cutAt (wrap : List α → Outcome ε β) (prev : Nat) : List Nat → List α → Outcome ε (List β)
  | [], _ => .ok []
  | o :: os, items =>
      if o < prev then .error (.panic .subtractOverflow)
      else do
        let b ← wrap (items.take (o - prev))
        let bs ← cutAt wrap o os (items.drop (o - prev))
        .ok (b :: bs)

/-- The offsets do not decrease, starting from `prev`. -/
def Ascending (prev : Nat) : List Nat → Bool
  | [] => true
  | o :: os => prev ≤ o && Ascending o os

@[simp] theorem endOffsets_length (start : Nat) (lens : List Nat) :
    (endOffsets start lens).length = lens.length := by
  induction lens generalizing start with
  | nil => rfl
  | cons n lens ih => simp [endOffsets, ih]

/-- The last offset is the length of the flat list. -/
theorem endOffsets_getLast? (start : Nat) (lens : List Nat) :
    (endOffsets start lens).getLast? = if lens = [] then none else some (start + lens.sum) := by
  induction lens generalizing start with
  | nil => rfl
  | cons n lens ih =>
      cases lens with
      | nil => simp [endOffsets]
      | cons m lens =>
          have hrest := ih (start + n)
          rw [endOffsets] at hrest ⊢
          rw [endOffsets, List.getLast?_cons_cons, hrest]
          simp [Nat.add_assoc]

theorem le_of_mem_endOffsets {start : Nat} {lens : List Nat} {o : Nat}
    (h : o ∈ endOffsets start lens) : o ≤ start + lens.sum := by
  induction lens generalizing start with
  | nil => simp [endOffsets] at h
  | cons n lens ih =>
      rw [endOffsets] at h
      rw [List.sum_cons]
      rcases List.mem_cons.mp h with rfl | hmem
      · omega
      · have := ih hmem
        omega

/-- Cutting at the end offsets of some parts returns these parts. -/
theorem cutAt_endOffsets {γ : Type} {wrap : List α → Outcome ε β} (part : γ → List α)
    {f : γ → β} {cs : List γ} (hwrap : ∀ c ∈ cs, wrap (part c) = .ok (f c)) (start : Nat) :
    cutAt wrap start (endOffsets start (cs.map fun c => (part c).length)) (cs.flatMap part) =
      .ok (cs.map f) := by
  induction cs generalizing start with
  | nil => rfl
  | cons c cs ih =>
      have hhead := hwrap c List.mem_cons_self
      have htail := ih (fun d hd => hwrap d (List.mem_cons_of_mem c hd)) (start + (part c).length)
      simp only [List.map_cons, endOffsets, cutAt, List.flatMap_cons]
      rw [if_neg (by omega), Nat.add_sub_cancel_left, List.take_left, List.drop_left, hhead]
      simp [htail]

/-- Cutting succeeds exactly at ascending offsets, and then gives one part for each. -/
theorem cutAt_of_ascending {wrap : List α → Outcome ε β} {f : List α → β} {P : α → Prop}
    (hwrap : ∀ xs, (∀ x ∈ xs, P x) → wrap xs = .ok (f xs)) {prev : Nat} {os : List Nat}
    {items : List α} (hitems : ∀ x ∈ items, P x) (hasc : Ascending prev os = true) :
    ∃ bs, cutAt wrap prev os items = .ok bs ∧ bs.length = os.length ∧ ∀ b ∈ bs, ∃ xs, b = f xs := by
  induction os generalizing prev items with
  | nil => exact ⟨[], rfl, rfl, by simp⟩
  | cons o os ih =>
      simp only [Ascending, Bool.and_eq_true, decide_eq_true_eq] at hasc
      have hhead := hwrap (items.take (o - prev)) fun x hx => hitems x (List.mem_of_mem_take hx)
      obtain ⟨bs, hbs, hlen, hparts⟩ := @ih o (items.drop (o - prev))
        (fun x hx => hitems x (List.mem_of_mem_drop hx)) hasc.2
      refine ⟨f (items.take (o - prev)) :: bs, ?_, by simp [hlen],
        List.forall_mem_cons.mpr ⟨⟨_, rfl⟩, hparts⟩⟩
      simp [cutAt, Nat.not_lt.mpr hasc.1, hhead, hbs]

theorem cutAt_of_not_ascending {wrap : List α → Outcome ε β} {f : List α → β} {P : α → Prop}
    (hwrap : ∀ xs, (∀ x ∈ xs, P x) → wrap xs = .ok (f xs)) {prev : Nat} {os : List Nat}
    {items : List α} (hitems : ∀ x ∈ items, P x) (hasc : Ascending prev os = false) :
    cutAt wrap prev os items = .error (.panic .subtractOverflow) := by
  induction os generalizing prev items with
  | nil => simp [Ascending] at hasc
  | cons o os ih =>
      by_cases hle : prev ≤ o
      · simp only [Ascending, hle, decide_true, Bool.true_and] at hasc
        have hhead := hwrap (items.take (o - prev)) fun x hx => hitems x (List.mem_of_mem_take hx)
        have htail := @ih o (items.drop (o - prev))
          (fun x hx => hitems x (List.mem_of_mem_drop hx)) hasc
        simp [cutAt, Nat.not_lt.mpr hle, hhead, htail]
      · simp [cutAt, Nat.lt_of_not_le hle]

/-! ## Pairs of flat lists under one list of offsets -/

/-- Cut two flat lists at the same offsets, taking entries one by one from the front until
as many are taken as the offset says; `taken` have been taken before. -/
def cutPairsAt (taken : Nat) : List Nat → List α → List β →
    Outcome ε (List (List α × List β))
  | [], _, _ => .ok []
  | o :: os, xs, ys =>
      if xs.length < o - taken ∨ ys.length < o - taken then .error (.panic .unwrapNone)
      else do
        let rest ← cutPairsAt (max taken o) os (xs.drop (o - taken)) (ys.drop (o - taken))
        .ok ((xs.take (o - taken), ys.take (o - taken)) :: rest)

theorem cutPairsAt_endOffsets (pss : List (List α × List β))
    (hpss : ∀ ps ∈ pss, ps.1.length = ps.2.length) (start : Nat) :
    (cutPairsAt start (endOffsets start (pss.map fun ps => ps.1.length))
        (pss.flatMap Prod.fst) (pss.flatMap Prod.snd) : Outcome ε (List (List α × List β)))
      = .ok pss := by
  induction pss generalizing start with
  | nil => rfl
  | cons ps pss ih =>
      obtain ⟨xs, ys⟩ := ps
      have hhead : xs.length = ys.length := hpss (xs, ys) List.mem_cons_self
      have htail := ih (fun qs hqs => hpss qs (List.mem_cons_of_mem _ hqs)) (start + xs.length)
      simp only [List.map_cons, endOffsets, cutPairsAt, List.flatMap_cons,
        Nat.add_sub_cancel_left, List.length_append]
      rw [if_neg (by omega), List.take_left, List.drop_left, Nat.max_eq_right (by omega)]
      rw [hhead] at htail ⊢
      rw [List.take_left, List.drop_left, htail]
      rfl

/-- Two lists of `total - taken` entries can be cut exactly at offsets of at most `total`. -/
theorem cutPairsAt_of_le {os : List Nat} {taken total : Nat} {xs : List α} {ys : List β}
    (hxs : xs.length = total - taken) (hys : ys.length = total - taken) (htaken : taken ≤ total)
    (hle : ∀ o ∈ os, o ≤ total) :
    ∃ pss, (cutPairsAt taken os xs ys : Outcome ε (List (List α × List β))) = .ok pss ∧
      pss.length = os.length := by
  induction os generalizing taken xs ys with
  | nil => exact ⟨[], rfl, rfl⟩
  | cons o os ih =>
      have ho := hle o List.mem_cons_self
      obtain ⟨pss, hpss, hlen⟩ := @ih (max taken o) (xs.drop (o - taken))
        (ys.drop (o - taken)) (by simp; omega) (by simp; omega) (by omega)
        fun o' ho' => hle o' (List.mem_cons_of_mem o ho')
      refine ⟨(xs.take (o - taken), ys.take (o - taken)) :: pss, ?_, by simp [hlen]⟩
      rw [cutPairsAt, if_neg (by omega), hpss]
      rfl

theorem cutPairsAt_of_lt {os : List Nat} {taken total : Nat} {xs : List α} {ys : List β}
    (hxs : xs.length = total - taken) (hys : ys.length = total - taken) (htaken : taken ≤ total)
    (hlt : ∃ o ∈ os, total < o) :
    (cutPairsAt taken os xs ys : Outcome ε (List (List α × List β))) =
      .error (.panic .unwrapNone) := by
  induction os generalizing taken xs ys with
  | nil => simp at hlt
  | cons o os ih =>
      by_cases ho : total < o
      · rw [cutPairsAt, if_pos (by omega)]
      · have htail := @ih (max taken o) (xs.drop (o - taken))
          (ys.drop (o - taken)) (by simp; omega) (by simp; omega) (by omega) (by
            obtain ⟨o', ho', hlt'⟩ := hlt
            rcases List.mem_cons.mp ho' with rfl | hmem
            · exact absurd hlt' ho
            · exact ⟨o', hmem, hlt'⟩)
        rw [cutPairsAt, if_neg (by omega), htail]
        rfl

/-! ## Columns of rows -/

/-- Put each entry at the end of the list at its position.  There is no list beyond the last. -/
def pushEach : List (List α) → List α → Outcome ε (List (List α))
  | lists, [] => .ok lists
  | [], _ :: _ => .error (.panic .indexOutOfBounds)
  | l :: lists, x :: xs => do
      let rest ← pushEach lists xs
      .ok ((l ++ [x]) :: rest)

/-- Push several lists of entries in turn. -/
def pushAll (lists : List (List α)) : List (List α) → Outcome ε (List (List α))
  | [] => .ok lists
  | xs :: xss => do
      let lists' ← pushEach lists xs
      pushAll lists' xss

/-- The first `k` columns of the rows. -/
def columnsOf [Inhabited α] : Nat → List (List α) → List (List α)
  | 0, _ => []
  | k + 1, rows => rows.map List.headI :: columnsOf k (rows.map List.tail)

@[simp] theorem columnsOf_length [Inhabited α] (k : Nat) (rows : List (List α)) :
    (columnsOf k rows).length = k := by
  induction k generalizing rows with
  | zero => rfl
  | succ k ih => simp [columnsOf, ih]

theorem columnsOf_nil [Inhabited α] (k : Nat) :
    columnsOf k ([] : List (List α)) = List.replicate k [] := by
  induction k with
  | zero => rfl
  | succ k ih => simpa [columnsOf, List.replicate_succ] using ih

theorem columnsOf_cons [Inhabited α] (row : List α) (rows : List (List α)) :
    columnsOf row.length (row :: rows) = List.zipWith List.cons row (columnsOf row.length rows) := by
  induction row generalizing rows with
  | nil => rfl
  | cons x row ih => simpa [columnsOf] using ih (rows.map List.tail)

theorem pushEach_of_length_eq {lists : List (List α)} {xs : List α}
    (h : lists.length = xs.length) :
    (pushEach lists xs : Outcome ε (List (List α))) =
      .ok (List.zipWith (fun l x => l ++ [x]) lists xs) := by
  induction lists generalizing xs with
  | nil =>
      cases xs with
      | nil => rfl
      | cons x xs => simp at h
  | cons l lists ih =>
      cases xs with
      | nil => simp at h
      | cons x xs =>
          rw [pushEach, ih (by simpa using h)]
          rfl

/-- Fewer entries than lists are pushed without a fault. -/
theorem pushEach_of_length_le {lists : List (List α)} {xs : List α}
    (h : xs.length ≤ lists.length) :
    ∃ lists', (pushEach lists xs : Outcome ε (List (List α))) = .ok lists' ∧
      lists'.length = lists.length := by
  induction lists generalizing xs with
  | nil =>
      have hnil : xs = [] := List.length_eq_zero_iff.mp (Nat.le_zero.mp h)
      exact ⟨[], by rw [hnil, pushEach], rfl⟩
  | cons l lists ih =>
      cases xs with
      | nil => exact ⟨_, rfl, rfl⟩
      | cons x xs =>
          obtain ⟨rest, hrest, hlen⟩ := ih (Nat.le_of_succ_le_succ h)
          exact ⟨(l ++ [x]) :: rest, by rw [pushEach, hrest]; rfl, by simp [hlen]⟩

theorem zipWith_append_replicate_nil (ls : List (List α)) :
    List.zipWith (· ++ ·) ls (List.replicate ls.length []) = ls := by
  induction ls with
  | nil => rfl
  | cons l ls ih => simp [List.replicate_succ, ih]

theorem zipWith_replicate_nil_append (ls : List (List α)) :
    List.zipWith (· ++ ·) (List.replicate ls.length []) ls = ls := by
  induction ls with
  | nil => rfl
  | cons l ls ih => simp [List.replicate_succ, ih]

theorem zipWith_append_snoc (ls : List (List α)) (xs : List α) (ys : List (List α)) :
    List.zipWith (· ++ ·) (List.zipWith (fun l x => l ++ [x]) ls xs) ys =
      List.zipWith (· ++ ·) ls (List.zipWith List.cons xs ys) := by
  induction ls generalizing xs ys with
  | nil => rfl
  | cons l ls ih =>
      cases xs with
      | nil => rfl
      | cons x xs =>
          cases ys with
          | nil => rfl
          | cons y ys => simp [ih]

/-- Pushing rows of one width, one after the other, gives their columns. -/
theorem pushAll_eq_columnsOf [Inhabited α] {k : Nat} {rows : List (List α)}
    (hrows : ∀ row ∈ rows, row.length = k) {lists : List (List α)} (hlists : lists.length = k) :
    (pushAll lists rows : Outcome ε (List (List α))) =
      .ok (List.zipWith (· ++ ·) lists (columnsOf k rows)) := by
  induction rows generalizing lists with
  | nil =>
      subst hlists
      rw [pushAll, columnsOf_nil, zipWith_append_replicate_nil]
  | cons row rows ih =>
      have hrow := hrows row List.mem_cons_self
      have hpush : (pushEach lists row : Outcome ε (List (List α))) =
          .ok (List.zipWith (fun l x => l ++ [x]) lists row) :=
        pushEach_of_length_eq (by rw [hlists, hrow])
      rw [pushAll, hpush]
      simp only [Outcome.ok_bind]
      rw [ih (fun r hr => hrows r (List.mem_cons_of_mem row hr)) (by simp [hlists, hrow]),
        zipWith_append_snoc]
      subst hrow
      rw [columnsOf_cons]

theorem pushAll_replicate [Inhabited α] {k : Nat} {rows : List (List α)}
    (hrows : ∀ row ∈ rows, row.length = k) :
    (pushAll (List.replicate k []) rows : Outcome ε (List (List α))) =
      .ok (columnsOf k rows) := by
  have hcolumns := zipWith_replicate_nil_append (columnsOf k rows)
  rw [columnsOf_length] at hcolumns
  rw [pushAll_eq_columnsOf hrows (by simp), hcolumns]

/-! ## Dictionaries -/

/-- A set of values in insertion order, under an equality test `same`. -/
def insertKey (same : α → α → Bool) (keys : List α) (a : α) : List α :=
  if keys.any fun k => same k a then keys else keys ++ [a]

def insertKeys (same : α → α → Bool) (keys : List α) (as : List α) : List α :=
  as.foldl (insertKey same) keys

/-- The position of a value among the keys. -/
def indexOfKey (same : α → α → Bool) (keys : List α) (a : α) : Option Nat :=
  keys.findIdx? fun k => same k a

section Dictionary

variable {same : α → α → Bool} {as : List α}

theorem insertKey_subset {keys : List α} {a x : α} (h : x ∈ insertKey same keys a) :
    x ∈ keys ∨ x = a := by
  unfold insertKey at h
  split at h
  · exact .inl h
  · simpa using h

theorem prefix_insertKey (keys : List α) (a : α) : keys <+: insertKey same keys a := by
  unfold insertKey
  split
  · exact List.prefix_refl keys
  · exact List.prefix_append keys [a]

theorem prefix_insertKeys (keys as : List α) : keys <+: insertKeys same keys as := by
  induction as generalizing keys with
  | nil => exact List.prefix_refl keys
  | cons a as ih => exact (prefix_insertKey keys a).trans (ih (insertKey same keys a))

theorem mem_insertKeys {keys as : List α} {x : α} (h : x ∈ insertKeys same keys as) :
    x ∈ keys ∨ x ∈ as := by
  induction as generalizing keys with
  | nil => exact .inl h
  | cons a as ih =>
      rcases ih h with hkeys | hmem
      · rcases insertKey_subset hkeys with hold | rfl
        · exact .inl hold
        · exact .inr List.mem_cons_self
      · exact .inr (List.mem_cons_of_mem a hmem)

/-- Keys that are added later do not move the ones that are there. -/
theorem indexOfKey_of_extends {keys keys' : List α} {a : α} {i : Nat} (hextends : keys <+: keys')
    (h : indexOfKey same keys a = some i) : indexOfKey same keys' a = some i := by
  obtain ⟨more, rfl⟩ := hextends
  unfold indexOfKey at h ⊢
  rw [List.findIdx?_append, h]
  rfl

/-- The test decides equality with the values that are looked up. -/
def DecidesEq (same : α → α → Bool) (as : List α) : Prop :=
  ∀ a ∈ as, ∀ k, same k a = true ↔ k = a

theorem exists_indexOfKey (hsame : DecidesEq same as) {keys : List α} {a : α} (ha : a ∈ as)
    (hmem : a ∈ keys) : ∃ i, indexOfKey same keys a = some i ∧ keys[i]? = some a := by
  have hany : (keys.findIdx? fun k => same k a).isSome := by
    rw [List.findIdx?_isSome, List.any_eq_true]
    exact ⟨a, hmem, (hsame a ha a).mpr rfl⟩
  obtain ⟨i, hi⟩ := Option.isSome_iff_exists.mp hany
  refine ⟨i, hi, ?_⟩
  obtain ⟨hlt, hkey, -⟩ := List.findIdx?_eq_some_iff_getElem.mp hi
  rw [List.getElem?_eq_getElem hlt, (hsame a ha _).mp hkey]

theorem mem_insertKeys_of_mem (hsame : DecidesEq same as) {keys bs : List α}
    (hbs : ∀ b ∈ bs, b ∈ as) {a : α} (ha : a ∈ bs) : a ∈ insertKeys same keys bs := by
  induction bs generalizing keys with
  | nil => simp at ha
  | cons b bs ih =>
      rcases List.mem_cons.mp ha with rfl | hmem
      · refine (prefix_insertKeys (insertKey same keys a) bs).subset ?_
        unfold insertKey
        split
        · next hany =>
            obtain ⟨k, hk, heq⟩ := List.any_eq_true.mp hany
            exact (hsame a (hbs a List.mem_cons_self) k).mp heq ▸ hk
        · simp
      · exact ih (fun c hc => hbs c (List.mem_cons_of_mem b hc)) hmem

theorem mem_insertKeys_iff (hsame : DecidesEq same as) {keys : List α} {x : α} :
    x ∈ insertKeys same keys as ↔ x ∈ keys ∨ x ∈ as := by
  constructor
  · exact mem_insertKeys
  · rintro (hkeys | hmem)
    · exact (prefix_insertKeys keys as).subset hkeys
    · exact mem_insertKeys_of_mem hsame (fun _ h => h) hmem

/-- No value is inserted twice. -/
theorem insertKeys_nodup {keys as : List α} (hsame : DecidesEq same as) (hkeys : keys.Nodup) :
    (insertKeys same keys as).Nodup := by
  induction as generalizing keys with
  | nil => exact hkeys
  | cons a as ih =>
      apply ih (fun b hb => hsame b (List.mem_cons_of_mem a hb))
      unfold insertKey
      split
      · exact hkeys
      · next hany =>
          rw [List.nodup_append]
          refine ⟨hkeys, by simp, ?_⟩
          rintro k hk b hb rfl
          obtain rfl := List.mem_singleton.mp hb
          exact hany (List.any_eq_true.mpr ⟨k, hk, (hsame k List.mem_cons_self k).mpr rfl⟩)

/-- Every value finds itself in the dictionary of the values. -/
theorem indexOfKey_insertKeys (hsame : DecidesEq same as) (keys : List α) {a : α} (ha : a ∈ as) :
    ∃ i, indexOfKey same (insertKeys same keys as) a = some i ∧
      (insertKeys same keys as)[i]? = some a :=
  exists_indexOfKey hsame ha (mem_insertKeys_of_mem hsame (fun _ h => h) ha)

end Dictionary

end Wire
