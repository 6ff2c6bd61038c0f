import Mathlib.Data.Finmap
import Mathlib.Order.Basic

/-!
# Map types

Three maps from keys to values, told apart by the order in which they hand out their entries:
in the order of first insertion, in the order of the keys, and in an order that a hasher
chooses.  `MapLike` is what a program that copies a map entry by entry relies on: the entries
of a map, inserted one after the other into the empty map, make the map again.
-/

namespace Wire

/-- A type of maps that are filled by insertion and read by iteration. -/
structure MapLike (κ ν : Type) where
  Carrier : Type
  empty : Carrier
  insert : Carrier → κ → ν → Carrier
  iter : Carrier → List (κ × ν)
  rebuild : ∀ m, (iter m).foldl (fun out e => insert out e.1 e.2) empty = m

variable {κ ν : Type}

/-! ## In the order of first insertion -/

section IndexMap

variable [DecidableEq κ]

/-- Give a key a value: in its place when the key is there, else at the end. -/
def setEntry (key : κ) (value : ν) : List (κ × ν) → List (κ × ν)
  | [] => [(key, value)]
  | e :: es => if e.1 = key then (e.1, value) :: es else e :: setEntry key value es

theorem setEntry_keys (key : κ) (value : ν) (es : List (κ × ν)) :
    (setEntry key value es).map Prod.fst =
      if key ∈ es.map Prod.fst then es.map Prod.fst else es.map Prod.fst ++ [key] := by
  induction es with
  | nil => simp [setEntry]
  | cons e es ih =>
    by_cases hkey : e.1 = key
    · simp [setEntry, hkey]
    · have hother : key ≠ e.1 := fun h => hkey h.symm
      simp only [setEntry, if_neg hkey, List.map_cons, ih, List.mem_cons, hother, false_or]
      split <;> simp

theorem setEntry_of_notMem {key : κ} (value : ν) {es : List (κ × ν)}
    (h : key ∉ es.map Prod.fst) : setEntry key value es = es ++ [(key, value)] := by
  induction es with
  | nil => rfl
  | cons e es ih =>
    rw [List.map_cons, List.mem_cons, not_or] at h
    rw [setEntry, if_neg fun hkey => h.1 hkey.symm, ih h.2, List.cons_append]

variable (κ ν) in
/-- The entries of a map in the order of their first insertion. -/
@[ext] structure IndexMap where
  entries : List (κ × ν)
  nodup : (entries.map Prod.fst).Nodup

namespace IndexMap

theorem setEntry_nodup (m : IndexMap κ ν) (key : κ) (value : ν) :
    ((setEntry key value m.entries).map Prod.fst).Nodup := by
  rw [setEntry_keys]
  split
  · exact m.nodup
  · next hkey => exact List.nodup_append.mpr ⟨m.nodup, List.nodup_singleton key, by
      rintro a ha b hb rfl
      rw [List.mem_singleton] at hb
      exact hkey (hb ▸ ha)⟩

def empty : IndexMap κ ν := ⟨[], List.nodup_nil⟩

def insert (m : IndexMap κ ν) (key : κ) (value : ν) : IndexMap κ ν :=
  ⟨setEntry key value m.entries, m.setEntry_nodup key value⟩

/-- Entries with new keys are appended in their order. -/
theorem foldl_insert_entries {es : List (κ × ν)} {m : IndexMap κ ν}
    (h : ((m.entries ++ es).map Prod.fst).Nodup) :
    (es.foldl (fun out e => out.insert e.1 e.2) m).entries = m.entries ++ es := by
  induction es generalizing m with
  | nil => simp
  | cons e es ih =>
    -- No key of an entry that is left occurs in the map.
    have hnew : e.1 ∉ m.entries.map Prod.fst := by
      rw [List.map_append, List.nodup_append, List.map_cons] at h
      exact fun hmem => h.2.2 _ hmem _ List.mem_cons_self rfl
    have hentries : (m.insert e.1 e.2).entries = m.entries ++ [e] := setEntry_of_notMem e.2 hnew
    rw [List.foldl_cons, ih, hentries, List.append_assoc, List.singleton_append]
    rwa [hentries, List.append_assoc, List.singleton_append]

end IndexMap

/-- Maps in the order of first insertion. -/
def indexMaps : MapLike κ ν where
  Carrier := IndexMap κ ν
  empty := IndexMap.empty
  insert := IndexMap.insert
  iter := IndexMap.entries
  rebuild m := IndexMap.ext (IndexMap.foldl_insert_entries m.nodup)

end IndexMap

/-! ## In the order of the keys -/

section BTreeMap

variable [LinearOrder κ]

/-- Give a key a value among entries in the order of their keys. -/
def insertEntry (key : κ) (value : ν) : List (κ × ν) → List (κ × ν)
  | [] => [(key, value)]
  | e :: es =>
      if key < e.1 then (key, value) :: e :: es
      else if e.1 = key then (e.1, value) :: es
      else e :: insertEntry key value es

theorem mem_insertEntry_keys {key : κ} {value : ν} {es : List (κ × ν)} {k : κ}
    (h : k ∈ (insertEntry key value es).map Prod.fst) : k = key ∨ k ∈ es.map Prod.fst := by
  induction es with
  | nil => simpa [insertEntry] using h
  | cons e es ih =>
    rw [insertEntry] at h
    split at h
    · simpa using h
    · split at h
      · exact .inr (by simpa using h)
      · rw [List.map_cons, List.mem_cons] at h
        rcases h with rfl | hrest
        · exact .inr (by simp)
        · exact (ih hrest).imp_right (List.mem_cons_of_mem _)

theorem insertEntry_sorted (key : κ) (value : ν) {es : List (κ × ν)}
    (h : (es.map Prod.fst).Pairwise (· < ·)) :
    ((insertEntry key value es).map Prod.fst).Pairwise (· < ·) := by
  induction es with
  | nil => simp [insertEntry]
  | cons e es ih =>
    rw [List.map_cons, List.pairwise_cons] at h
    rw [insertEntry]
    split
    · next hlt =>
      simp only [List.map_cons, List.pairwise_cons, List.mem_cons]
      refine ⟨?_, h⟩
      rintro k (rfl | hk)
      · exact hlt
      · exact hlt.trans (h.1 k hk)
    · next hge =>
      -- The key is that of the first entry, or belongs behind it.
      split
      · simpa only [List.map_cons, List.pairwise_cons] using h
      · next hne =>
        rw [List.map_cons, List.pairwise_cons]
        refine ⟨fun k hk => ?_, ih h.2⟩
        rcases mem_insertEntry_keys hk with rfl | hk
        · exact lt_of_le_of_ne (not_lt.mp hge) hne
        · exact h.1 k hk

theorem insertEntry_of_lt {key : κ} (value : ν) {es : List (κ × ν)}
    (h : ∀ k ∈ es.map Prod.fst, k < key) : insertEntry key value es = es ++ [(key, value)] := by
  induction es with
  | nil => rfl
  | cons e es ih =>
    have hlt : e.1 < key := h e.1 (by simp)
    rw [insertEntry, if_neg hlt.asymm, if_neg hlt.ne,
      ih fun k hk => h k (List.mem_cons_of_mem _ hk), List.cons_append]

variable (κ ν) in
/-- The entries of a map in the order of their keys. -/
@[ext] structure BTreeMap where
  entries : List (κ × ν)
  sorted : (entries.map Prod.fst).Pairwise (· < ·)

namespace BTreeMap

def empty : BTreeMap κ ν := ⟨[], List.Pairwise.nil⟩

def insert (m : BTreeMap κ ν) (key : κ) (value : ν) : BTreeMap κ ν :=
  ⟨insertEntry key value m.entries, insertEntry_sorted key value m.sorted⟩

/-- Entries with larger and larger keys are appended in their order. -/
theorem foldl_insert_entries {es : List (κ × ν)} {m : BTreeMap κ ν}
    (h : ((m.entries ++ es).map Prod.fst).Pairwise (· < ·)) :
    (es.foldl (fun out e => out.insert e.1 e.2) m).entries = m.entries ++ es := by
  induction es generalizing m with
  | nil => simp
  | cons e es ih =>
    -- The next key is larger than all in the map.
    have hlarger : ∀ k ∈ m.entries.map Prod.fst, k < e.1 := by
      rw [List.map_append, List.pairwise_append, List.map_cons] at h
      exact fun k hk => h.2.2 k hk e.1 List.mem_cons_self
    have hentries : (m.insert e.1 e.2).entries = m.entries ++ [e] := insertEntry_of_lt e.2 hlarger
    rw [List.foldl_cons, ih, hentries, List.append_assoc, List.singleton_append]
    rwa [hentries, List.append_assoc, List.singleton_append]

end BTreeMap

/-- Maps in the order of the keys. -/
def bTreeMaps : MapLike κ ν where
  Carrier := BTreeMap κ ν
  empty := BTreeMap.empty
  insert := BTreeMap.insert
  iter := BTreeMap.entries
  rebuild m := BTreeMap.ext (BTreeMap.foldl_insert_entries m.sorted)

end BTreeMap

/-! ## In the order of a hasher -/

section HashMap

variable [DecidableEq κ]

variable (κ ν) in
/-- For each map an order in which its entries are handed out. -/
structure HashOrder where
  entries : Finmap (fun _ : κ => ν) → List ((_ : κ) × ν)
  coe_entries : ∀ m, (entries m : Multiset ((_ : κ) × ν)) = m.entries

instance : Nonempty (HashOrder κ ν) := ⟨fun m => m.entries.toList, fun m => m.entries.coe_toList⟩

/-- Entries with new keys are added. -/
theorem foldl_insert_finmap {es : List ((_ : κ) × ν)} {m : Finmap fun _ : κ => ν}
    (hnodup : es.NodupKeys) (hnew : ∀ e ∈ es, e.1 ∉ m) :
    (es.foldl (fun out e => out.insert e.1 e.2) m).entries = m.entries + (es : Multiset _) := by
  induction es generalizing m with
  | nil => simp
  | cons e es ih =>
    rw [List.nodupKeys_cons] at hnodup
    have hrest : ∀ x ∈ es, x.1 ∉ m.insert e.1 e.2 := by
      intro x hx
      rw [Finmap.mem_insert, not_or]
      refine ⟨fun hkey => hnodup.1 ?_, hnew x (List.mem_cons_of_mem e hx)⟩
      rw [← hkey]
      exact List.mem_map_of_mem hx
    rw [List.foldl_cons, ih hnodup.2 hrest,
      Finmap.entries_insert_of_notMem (hnew e List.mem_cons_self), ← Multiset.cons_coe,
      Multiset.cons_add, Multiset.add_cons]

/-- Hash maps that hand out their entries in the given orders. -/
def hashMaps (order : HashOrder κ ν) : MapLike κ ν where
  Carrier := Finmap fun _ : κ => ν
  empty := ∅
  insert m key value := m.insert key value
  iter m := (order.entries m).map fun e => (e.1, e.2)
  rebuild m := by
    rw [List.foldl_map]
    apply Finmap.ext
    have hnodup : (order.entries m).NodupKeys := by
      rw [← Multiset.coe_nodupKeys, order.coe_entries]
      exact m.nodupKeys
    -- All entries are new to the empty map, whatever their order.
    rw [foldl_insert_finmap hnodup fun e _ => Finmap.notMem_empty, order.coe_entries]
    exact zero_add m.entries

end HashMap

end Wire
