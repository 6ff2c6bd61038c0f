import ClickhouseArrow.Client.Load

/-!
# The lanes of the load counter

The loads of up to four connections are bytes of one counter.  `assign` reads the counter when
it has no key, and adds its weight in a second access; `finish` subtracts the weight of an
earlier assignment.  The accesses of any number of operations interleave.  A byte is the weight
that is outstanding on its connection while that weight fits the byte; past 255 it carries into
the neighbour.
-/

namespace ClickhouseArrow

open Running

/-! ## Packed weights -/

namespace Running

/-- The number whose digits to the base 256 are the weights on the connections. -/
def packed (entries : List (Nat × Nat)) : Nat :=
  (entries.map fun e => e.2 * 256 ^ e.1).sum

theorem weightOn_cons (i : Nat) (e : Nat × Nat) (entries : List (Nat × Nat)) :
    weightOn i (e :: entries) = (if e.1 = i then e.2 else 0) + weightOn i entries := by
  unfold weightOn
  by_cases h : e.1 = i <;> simp [h]

theorem shifted_perm {entries entries' : List (Nat × Nat)} (h : entries.Perm entries') :
    shifted entries = shifted entries' :=
  (h.map _).sum_eq

theorem shifted_eq_packed (entries : List (Nat × Nat)) :
    shifted entries = BitVec.ofNat 64 (packed entries) := by
  induction entries with
  | nil => rfl
  | cons e entries ih =>
    have hpow : 2 ^ (e.1 * 8) = 256 ^ e.1 := by
      rw [mul_comm, pow_mul]
      norm_num
    have hhead : AtomicLoad.weightAt e.2 e.1 = BitVec.ofNat 64 (e.2 * 256 ^ e.1) := by
      rw [AtomicLoad.weightAt_eq_mul, hpow, BitVec.ofNat_mul]
    simp only [shifted, packed, List.map_cons, List.sum_cons] at ih ⊢
    rw [ih, hhead, BitVec.ofNat_add]

/-- The weights on four connections are the four digits. -/
theorem packed_eq_digits {entries : List (Nat × Nat)} (hidx : ∀ e ∈ entries, e.1 < 4) :
    packed entries = weightOn 0 entries + 256 * weightOn 1 entries +
      65536 * weightOn 2 entries + 16777216 * weightOn 3 entries := by
  induction entries with
  | nil => rfl
  | cons e entries ih =>
    obtain ⟨i, weight⟩ := e
    have hi : i < 4 := hidx (i, weight) List.mem_cons_self
    have htail := ih fun e he => hidx e (List.mem_cons_of_mem _ he)
    have hcons : packed ((i, weight) :: entries) = weight * 256 ^ i + packed entries := by
      simp [packed]
    rw [hcons, htail]
    simp only [weightOn_cons]
    -- One of the four connections takes the weight.
    obtain rfl | rfl | rfl | rfl : i = 0 ∨ i = 1 ∨ i = 2 ∨ i = 3 := by omega
    all_goals
      simp
      ring

theorem weightOn_eq_zero {entries : List (Nat × Nat)} (hidx : ∀ e ∈ entries, e.1 < 4) {i : Nat}
    (hi : 4 ≤ i) : weightOn i entries = 0 := by
  have hnone : entries.filter (fun e => e.1 = i) = [] := by
    rw [List.filter_eq_nil_iff]
    intro e he
    have := hidx e he
    simp only [decide_eq_true_eq]
    omega
  rw [weightOn, hnone]
  rfl

end Running

namespace AtomicLoad

/-- A load is a digit to the base 256. -/
theorem toNat_load (b : AtomicLoad) (i : Nat) :
    (b.load i).toNat = b.loadCounter.toNat / 256 ^ i % 256 := by
  have hpow : 2 ^ (i * 8) = 256 ^ i := by
    rw [mul_comm, pow_mul]
    norm_num
  have hmask : (0xFF : BitVec 64).toNat = 2 ^ 8 - 1 := rfl
  rw [load, BitVec.toNat_and, BitVec.toNat_ushiftRight, hmask, Nat.and_two_pow_sub_one_eq_mod,
    Nat.shiftRight_eq_div_pow, hpow]

theorem load_lt (b : AtomicLoad) (i : Nat) : (b.load i).toNat < 256 := by
  rw [toNat_load]
  exact Nat.mod_lt _ (by decide)

/-- Weights that fit their bytes are the loads. -/
theorem load_of_fits {b : AtomicLoad} {entries : List (Nat × Nat)}
    (hcounter : b.loadCounter = shifted entries) (hidx : ∀ e ∈ entries, e.1 < 4)
    (hfits : ∀ i, weightOn i entries ≤ 255) (i : Nat) :
    (b.load i).toNat = weightOn i entries := by
  have h0 := hfits 0
  have h1 := hfits 1
  have h2 := hfits 2
  have h3 := hfits 3
  have hdigits := packed_eq_digits hidx
  have htoNat : b.loadCounter.toNat = packed entries := by
    rw [hcounter, shifted_eq_packed, BitVec.toNat_ofNat]
    exact Nat.mod_eq_of_lt (by omega)
  rw [toNat_load, htoNat]
  by_cases hi : i < 4
  · obtain rfl | rfl | rfl | rfl : i = 0 ∨ i = 1 ∨ i = 2 ∨ i = 3 := by omega
    all_goals
      simp only [Nat.reducePow]
      omega
  · have hpow : 256 ^ 4 ≤ 256 ^ i := Nat.pow_le_pow_right (by decide) (by omega)
    rw [weightOn_eq_zero hidx (by omega), Nat.div_eq_of_lt (by omega)]

/-- No connection has a smaller load than the least loaded one. -/
theorem load_leastLoaded_le (b : AtomicLoad) {j : Nat} (hj : j < b.maxConnections) :
    (b.load b.leastLoaded).toNat ≤ (b.load j).toNat := by
  unfold leastLoaded
  cases h : (List.range b.maxConnections).argmin fun i => (b.load i).toNat with
  | none =>
    rw [List.argmin_eq_none, List.range_eq_nil] at h
    omega
  | some i =>
    exact List.le_of_mem_argmin (f := fun i => (b.load i).toNat) (List.mem_range.mpr hj) h

end AtomicLoad

/-! ## Interleaved accesses -/

/-- An access of one operation, or the choice that precedes it: `assign` chooses a connection
and then adds the weight of one of the choices made so far; `finish` releases one of the
outstanding assignments. -/
inductive Access
  | choose (key : Option Nat) (weight : Nat)
  | add (n : Nat)
  | finish (n : Nat)
  deriving DecidableEq, Repr

/-- A counter, the choices whose weight is not added yet, and the outstanding assignments, each
by its connection and its weight. -/
structure Lanes where
  balancer : AtomicLoad
  chosen : List (Nat × Nat)
  outstanding : List (Nat × Nat)

namespace Lanes

/-- `AtomicLoad::new`, for as many connections as `b` has. -/
def start (b : AtomicLoad) : Lanes := ⟨{ b with loadCounter := 0 }, [], []⟩

def step (s : Lanes) : Access → Lanes
  | .choose key weight => { s with chosen := s.chosen ++ [(s.balancer.select key, weight)] }
  | .add n =>
    match s.chosen[n]? with
    | none => s
    | some e => ⟨s.balancer.assign e.2 e.1, s.chosen.eraseIdx n, e :: s.outstanding⟩
  | .finish n =>
    match s.outstanding[n]? with
    | none => s
    | some e => ⟨s.balancer.finish e.2 e.1, s.chosen, s.outstanding.eraseIdx n⟩

def run (s : Lanes) (accesses : List Access) : Lanes := accesses.foldl step s

/-- The weight that is outstanding on a connection. -/
def outstandingOn (s : Lanes) (i : Nat) : Nat := weightOn i s.outstanding

/-- Each byte of the counter is the weight outstanding on its connection, and a keyless
`assign` that reads the counter now chooses a connection whose weight is minimal. -/
def Independent (s : Lanes) : Prop :=
  (∀ i, (s.balancer.load i).toNat = s.outstandingOn i) ∧
    ∀ j < s.balancer.maxConnections, s.outstandingOn (s.balancer.select none) ≤ s.outstandingOn j

/-- The books agree with the counter, whether the weights fit or not. -/
structure Booked (s : Lanes) : Prop where
  counter : s.balancer.loadCounter = shifted s.outstanding
  chosen_lt : ∀ e ∈ s.chosen, e.1 < 4
  outstanding_lt : ∀ e ∈ s.outstanding, e.1 < 4

theorem booked_start (b : AtomicLoad) : (start b).Booked where
  counter := rfl
  chosen_lt := by simp [start]
  outstanding_lt := by simp [start]

/-- An entry and the list without it. -/
theorem perm_cons_eraseIdx {entries : List (Nat × Nat)} {n : Nat} {e : Nat × Nat}
    (h : entries[n]? = some e) : entries.Perm (e :: entries.eraseIdx n) := by
  obtain ⟨hn, rfl⟩ := List.getElem?_eq_some_iff.mp h
  exact (List.getElem_cons_eraseIdx_perm hn).symm

theorem booked_step {s : Lanes} (h : s.Booked) (access : Access) : (s.step access).Booked := by
  cases access with
  | choose key weight =>
    refine ⟨h.counter, fun e he => ?_, h.outstanding_lt⟩
    rcases List.mem_append.mp he with hold | hnew
    · exact h.chosen_lt e hold
    · obtain rfl := List.mem_singleton.mp hnew
      exact (s.balancer.select_lt key).trans_le s.balancer.atMostFour
  | add n =>
    cases hn : s.chosen[n]? with
    | none => simpa [step, hn] using h
    | some e =>
      simp only [step, hn]
      refine ⟨?_, fun d hd => h.chosen_lt d (List.mem_of_mem_eraseIdx hd), fun d hd => ?_⟩
      · rw [AtomicLoad.assign_loadCounter, h.counter]
        simp only [shifted, List.map_cons, List.sum_cons]
        ring
      · rcases List.mem_cons.mp hd with rfl | hold
        · exact h.chosen_lt d (List.mem_of_getElem? hn)
        · exact h.outstanding_lt d hold
  | finish n =>
    cases hn : s.outstanding[n]? with
    | none => simpa [step, hn] using h
    | some e =>
      simp only [step, hn]
      refine ⟨?_, h.chosen_lt, fun d hd => h.outstanding_lt d (List.mem_of_mem_eraseIdx hd)⟩
      rw [AtomicLoad.finish_loadCounter, h.counter, shifted_perm (perm_cons_eraseIdx hn)]
      simp only [shifted, List.map_cons, List.sum_cons]
      ring

theorem booked_run {s : Lanes} (h : s.Booked) (accesses : List Access) :
    (s.run accesses).Booked := by
  induction accesses generalizing s with
  | nil => exact h
  | cons access accesses ih => exact ih (booked_step h access)

/-- Weights that fit their bytes keep the lanes apart. -/
theorem independent_of_fits {s : Lanes} (h : s.Booked) (hfits : ∀ i, s.outstandingOn i ≤ 255) :
    s.Independent := by
  have hload := AtomicLoad.load_of_fits h.counter h.outstanding_lt hfits
  refine ⟨hload, fun j hj => ?_⟩
  have hle := s.balancer.load_leastLoaded_le hj
  rw [hload, hload] at hle
  exact hle

/-- **The lanes are independent as long as no connection has more than 255 outstanding**: in
every interleaving, and after every access of it. -/
theorem independent_iff_fits (b : AtomicLoad) (accesses : List Access) :
    (∀ n, ((start b).run (accesses.take n)).Independent) ↔
      ∀ n i, ((start b).run (accesses.take n)).outstandingOn i ≤ 255 := by
  constructor
  · intro h n i
    have hlt := ((start b).run (accesses.take n)).balancer.load_lt i
    rw [(h n).1 i] at hlt
    omega
  · intro h n
    exact independent_of_fits (booked_run (booked_start b) _) (h n)

/-- An `assign` whose two accesses follow each other. -/
def assignment (key : Option Nat) (weight : Nat) : List Access := [.choose key weight, .add 0]

/-- Assignments of one key that do not finish add up. -/
theorem outstandingOn_assignments {s : Lanes} (h : s.chosen = []) (weight n : Nat) :
    (s.run (List.replicate n (assignment (some 0) weight)).flatten).outstandingOn 0 =
      s.outstandingOn 0 + n * weight := by
  induction n generalizing s with
  | zero => simp [run]
  | succ n ih =>
    have hselect : s.balancer.select (some 0) = 0 := Nat.zero_mod _
    have hturn : s.run (assignment (some 0) weight) =
        ⟨s.balancer.assign weight 0, [], (0, weight) :: s.outstanding⟩ := by
      simp [run, assignment, step, h, hselect]
    have hhead : s.run (List.replicate (n + 1) (assignment (some 0) weight)).flatten =
        (s.run (assignment (some 0) weight)).run
          (List.replicate n (assignment (some 0) weight)).flatten := by
      rw [List.replicate_succ, List.flatten_cons, run, List.foldl_append]
      rfl
    rw [hhead, hturn, ih rfl]
    simp only [outstandingOn, weightOn_cons, if_true]
    ring

/-- Of 86 unfinished queries of one key 258 is outstanding, which no byte holds. -/
theorem not_independent_sample :
    ¬ ∀ (b : AtomicLoad) (accesses : List Access) (n : Nat),
      ((start b).run (accesses.take n)).Independent := by
  intro h
  have hall : ∀ accesses, ((start ⟨0, 2, by decide, by decide⟩).run accesses).Independent :=
    fun accesses => by simpa using h ⟨0, 2, by decide, by decide⟩ accesses accesses.length
  have hload := (hall (List.replicate 86 (assignment (some 0) 3)).flatten).1 0
  have hlt := AtomicLoad.load_lt (((start ⟨0, 2, by decide, by decide⟩).run
    (List.replicate 86 (assignment (some 0) 3)).flatten).balancer) 0
  rw [hload, outstandingOn_assignments rfl] at hlt
  simp [start, outstandingOn, weightOn] at hlt

end Lanes

end ClickhouseArrow
