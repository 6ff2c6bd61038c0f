import Mathlib.Algebra.BigOperators.Group.Finset.Piecewise
import Mathlib.Algebra.Order.BigOperators.Group.Finset
import Mathlib.Data.BitVec
import Mathlib.Data.List.MinMax
import Mathlib.Data.Fintype.BigOperators
import Mathlib.Tactic.Ring
import ClickhouseArrow.Wire.Reader

/-!
# Load accounting of the inner pool

The connections of a client share one counter with a byte of load for each of them
(`AtomicLoad`).  A call adds a weight whenever it sends an operation and subtracts a
weight once, just before it returns its response stream; every `?` on the way leaves the
call without the subtraction.  A pool runs any number of calls; one step is one access
to the counter, so that a schedule is an interleaving of the calls.
-/

namespace ClickhouseArrow

open Wire

/-- `AtomicLoad`: the counter is a `usize`, and `new` asserts the number of connections. -/
structure AtomicLoad where
  loadCounter : BitVec 64
  maxConnections : Nat
  atLeastOne : 0 < maxConnections
  atMostFour : maxConnections ≤ 4

namespace AtomicLoad

/-- The load byte of a connection. -/
def load (b : AtomicLoad) (i : Nat) : BitVec 64 :=
  (b.loadCounter >>> (i * 8)) &&& 0xFF

/-- The least loaded connection, the first of them if there are several. -/
def leastLoaded (b : AtomicLoad) : Nat :=
  ((List.range b.maxConnections).argmin fun i => (b.load i).toNat).getD 0

/-- The index that `assign` chooses. -/
def select (b : AtomicLoad) : Option Nat → Nat
  | some k => k % b.maxConnections
  | none => b.leastLoaded

/-- A weight, shifted to the byte of a connection. -/
def weightAt (weight idx : Nat) : BitVec 64 :=
  BitVec.ofNat 64 weight <<< (idx * 8)

/-- `fetch_add` of `assign`, which is left out for a weight of zero. -/
def assign (b : AtomicLoad) (weight idx : Nat) : AtomicLoad :=
  if weight = 0 then b else { b with loadCounter := b.loadCounter + weightAt weight idx }

/-- `finish`: `fetch_sub`, which wraps around. -/
def finish (b : AtomicLoad) (weight idx : Nat) : AtomicLoad :=
  if weight = 0 then b else { b with loadCounter := b.loadCounter - weightAt weight idx }

@[simp] theorem weightAt_zero (idx : Nat) : weightAt 0 idx = 0 := by
  simp [weightAt]

theorem weightAt_eq_mul (weight idx : Nat) :
    weightAt weight idx = BitVec.ofNat 64 weight * BitVec.ofNat 64 (2 ^ (idx * 8)) := by
  unfold weightAt
  rw [BitVec.shiftLeft_eq_mul_twoPow]
  congr 1
  exact BitVec.eq_of_toNat_eq (by simp)

theorem weightAt_add (v w idx : Nat) :
    weightAt (v + w) idx = weightAt v idx + weightAt w idx := by
  simp only [weightAt_eq_mul, BitVec.ofNat_add]
  exact add_mul _ _ _

/-- A small weight is not lost in the shift. -/
theorem weightAt_ne_zero {weight idx : Nat} (hpos : 0 < weight) (hweight : weight < 256)
    (hidx : idx < 4) : weightAt weight idx ≠ 0 := by
  intro h
  have hpow : 2 ^ (idx * 8) ≤ 2 ^ 24 := Nat.pow_le_pow_right (by omega) (by omega)
  have hle : weight * 2 ^ (idx * 8) ≤ 255 * 2 ^ 24 := Nat.mul_le_mul (by omega) hpow
  have hlt : 0 < weight * 2 ^ (idx * 8) := Nat.mul_pos hpos (Nat.two_pow_pos _)
  have hnat := congrArg BitVec.toNat h
  rw [weightAt, BitVec.toNat_shiftLeft, BitVec.toNat_ofNat, Nat.shiftLeft_eq,
    Nat.mod_eq_of_lt (show weight < 2 ^ 64 by omega),
    Nat.mod_eq_of_lt (by omega)] at hnat
  exact absurd hnat (by simpa using Nat.pos_iff_ne_zero.mp hpos)

@[simp] theorem assign_maxConnections (b : AtomicLoad) (weight idx : Nat) :
    (b.assign weight idx).maxConnections = b.maxConnections := by
  unfold assign
  split <;> rfl

@[simp] theorem finish_maxConnections (b : AtomicLoad) (weight idx : Nat) :
    (b.finish weight idx).maxConnections = b.maxConnections := by
  unfold finish
  split <;> rfl

theorem assign_loadCounter (b : AtomicLoad) (weight idx : Nat) :
    (b.assign weight idx).loadCounter = b.loadCounter + weightAt weight idx := by
  unfold assign
  split
  · simp [*]
  · rfl

theorem finish_loadCounter (b : AtomicLoad) (weight idx : Nat) :
    (b.finish weight idx).loadCounter = b.loadCounter - weightAt weight idx := by
  unfold finish
  split
  · simp [*]
  · rfl

theorem leastLoaded_lt (b : AtomicLoad) : b.leastLoaded < b.maxConnections := by
  unfold leastLoaded
  cases h : (List.range b.maxConnections).argmin fun i => (b.load i).toNat with
  | none => exact b.atLeastOne
  | some i => exact List.mem_range.mp (List.argmin_mem h)

theorem select_lt (b : AtomicLoad) (key : Option Nat) : b.select key < b.maxConnections := by
  cases key with
  | none => exact b.leastLoaded_lt
  | some k => exact Nat.mod_lt _ b.atLeastOne

end AtomicLoad

/-- The operations that a client sends to a connection. -/
inductive OperationKind
  | query
  | insert
  | insertMany
  | ping
  deriving DecidableEq, Repr

namespace OperationKind

/-- The load that an operation incurs. -/
def weight : OperationKind → Bool → Nat
  | query, true => 1
  | query, false => 3
  | insertMany, _ => 3
  | insert, _ => 2
  | ping, _ => 0

def weightQuery : Nat := 1

def weightInsert : Nat := 5

def weightInsertMany : Nat := 6

end OperationKind

/-- A query id. -/
abbrev Qid := Bytes

/-- `Qid::key`: the sum of the bytes of the query id. -/
def Qid.key (qid : Qid) : Nat := (qid.map UInt8.toNat).sum

/-- The key by which `send_operation` routes: none for a query that is finished when its
response arrives, and for a ping. -/
def OperationKind.key (op : OperationKind) (finished : Bool) (qid : Qid) : Option Nat :=
  if (op = query ∧ finished = false) ∨ op = insert ∨ op = insertMany then
    some (Qid.key qid)
  else none

/-- What becomes of an operation once it has been assigned to a connection. -/
inductive Sending
  | sent
  | noActiveConnection
  | channelClosed
  deriving DecidableEq, Repr

/-- What a oneshot receiver yields. -/
inductive Reply
  | ok
  | dropped
  | error
  deriving DecidableEq, Repr

/-- What a call meets at each `await` and at the conversion of its rows. -/
structure Outcomes where
  query : Sending
  responses : Reply
  header : Reply
  rows : Bool
  insert : Sending
  inserted : Reply
  deriving DecidableEq, Repr

/-- One access of a call to the shared counter, or the binding of `conn_idx`. -/
inductive Action
  | select (op : OperationKind) (finished : Bool)
  | assign (op : OperationKind) (finished : Bool)
  | bindConnIdx
  | finish (weight : Nat)
  deriving DecidableEq, Repr

namespace Client

/-- `Connection::send_operation`: the weight is assigned before the status and the channel
of the connection are looked at. -/
def sendOperation (op : OperationKind) (finished : Bool) (sending : Sending)
    (next : List Action) : List Action :=
  .select op finished :: .assign op finished :: if sending = .sent then next else []

/-- An `await` followed by `?`. -/
def await (reply : Reply) (next : List Action) : List Action :=
  if reply = .ok then next else []

/-- `Client::insert`. -/
def insert (o : Outcomes) : List Action :=
  sendOperation .query false o.query
    (.bindConnIdx :: await o.responses
      (sendOperation .insert true o.insert
        (await o.inserted [.finish OperationKind.weightInsert])))

/-- `Client::insert_many`. -/
def insertMany (o : Outcomes) : List Action :=
  sendOperation .query false o.query
    (.bindConnIdx :: await o.responses
      (sendOperation .insertMany true o.insert
        (await o.inserted [.finish OperationKind.weightInsertMany])))

/-- `Client::query_raw`. -/
def queryRaw (o : Outcomes) : List Action :=
  sendOperation .query true o.query
    (.bindConnIdx :: await o.responses [.finish OperationKind.weightQuery])

/-- `Client::insert_rows`, which awaits a header and converts its rows between the two
operations, and finishes with the weight of a query. -/
def insertRows (o : Outcomes) : List Action :=
  sendOperation .query false o.query
    (.bindConnIdx :: await o.responses
      (await o.header
        (if o.rows then
          sendOperation .insert true o.insert
            (await o.inserted [.finish OperationKind.weightQuery])
        else [])))

/-- `Client::query_rows`, which finishes with the weight of an insert of many blocks. -/
def queryRows (o : Outcomes) : List Action :=
  sendOperation .query true o.query
    (.bindConnIdx :: await o.responses
      (await o.header [.finish OperationKind.weightInsertMany]))

end Client

inductive Method
  | insert
  | insertMany
  | queryRaw
  | insertRows
  | queryRows
  deriving DecidableEq, Repr

structure Call where
  method : Method
  qid : Qid
  outcomes : Outcomes
  deriving DecidableEq, Repr

def Call.actions (call : Call) : List Action :=
  match call.method with
  | .insert => Client.insert call.outcomes
  | .insertMany => Client.insertMany call.outcomes
  | .queryRaw => Client.queryRaw call.outcomes
  | .insertRows => Client.insertRows call.outcomes
  | .queryRows => Client.queryRows call.outcomes

/-- A call in progress: the index that its current operation has selected, its
`conn_idx`, and the weights that it has added and subtracted, by connection. -/
structure Running where
  call : Call
  todo : List Action
  selected : Nat
  connIdx : Nat
  assigned : List (Nat × Nat)
  released : List (Nat × Nat)

namespace Running

def start (call : Call) : Running := ⟨call, call.actions, 0, 0, [], []⟩

/-- The next action of a call. -/
def perform (b : AtomicLoad) (r : Running) : AtomicLoad × Running :=
  match r.todo with
  | [] => (b, r)
  | .select op finished :: todo =>
    (b, { r with todo, selected := b.select (op.key finished r.call.qid) })
  | .assign op finished :: todo =>
    (b.assign (op.weight finished) r.selected,
      { r with todo, assigned := (r.selected, op.weight finished) :: r.assigned })
  | .bindConnIdx :: todo => (b, { r with todo, connIdx := r.selected })
  | .finish weight :: todo =>
    (b.finish weight r.connIdx,
      { r with todo, released := (r.connIdx, weight) :: r.released })

/-- The weight of the entries for a connection. -/
def weightOn (j : Nat) (entries : List (Nat × Nat)) : Nat :=
  ((entries.filter fun e => e.1 = j).map Prod.snd).sum

/-- The call has not begun, or it has returned. -/
def AtRest (r : Running) : Prop := r.todo = [] ∨ r.todo = r.call.actions

instance (r : Running) : Decidable r.AtRest := by
  unfold AtRest
  infer_instance

end Running

/-- Finitely many calls over one counter. -/
structure Pool (n : Nat) where
  balancer : AtomicLoad
  running : Fin n → Running

namespace Pool

variable {n : Nat}

def start (b : AtomicLoad) (calls : Fin n → Call) : Pool n :=
  ⟨b, fun i => Running.start (calls i)⟩

/-- The `i`-th call performs its next action. -/
def step (p : Pool n) (i : Fin n) : Pool n :=
  ⟨((p.running i).perform p.balancer).1,
    Function.update p.running i ((p.running i).perform p.balancer).2⟩

/-- A run in the order of a schedule. -/
def run (p : Pool n) (schedule : List (Fin n)) : Pool n := schedule.foldl step p

/-- The weight assigned to a connection so far. -/
def assigned (p : Pool n) (j : Nat) : Nat :=
  ∑ i, Running.weightOn j (p.running i).assigned

/-- The weight released from a connection so far. -/
def released (p : Pool n) (j : Nat) : Nat :=
  ∑ i, Running.weightOn j (p.running i).released

def AtRest (p : Pool n) : Prop := ∀ i, (p.running i).AtRest

instance (p : Pool n) : Decidable p.AtRest := by
  unfold AtRest
  infer_instance

/-- At no moment of any interleaving is more released than assigned, and whenever every
call that has begun has returned, the counter has its first value. -/
def LoadBalances (b : AtomicLoad) (calls : Fin n → Call) : Prop :=
  ∀ schedule : List (Fin n),
    (∀ j, ((start b calls).run schedule).released j ≤
      ((start b calls).run schedule).assigned j) ∧
    (((start b calls).run schedule).AtRest →
      ((start b calls).run schedule).balancer.loadCounter = b.loadCounter)

end Pool

/-- The call is one of the three methods that subtract what they have added, and reaches
the subtraction. -/
def Call.Settles (call : Call) : Prop :=
  match call.method with
  | .insert | .insertMany =>
    call.outcomes.query = .sent ∧ call.outcomes.responses = .ok ∧
      call.outcomes.insert = .sent ∧ call.outcomes.inserted = .ok
  | .queryRaw => call.outcomes.query = .sent ∧ call.outcomes.responses = .ok
  | .insertRows | .queryRows => False

instance (call : Call) : Decidable call.Settles := by
  unfold Call.Settles
  split <;> infer_instance

/-! ## The counter is the first value plus what is assigned less what is released -/

namespace Running

/-- What a list of entries amounts to on the counter. -/
def shifted (entries : List (Nat × Nat)) : BitVec 64 :=
  (entries.map fun e => AtomicLoad.weightAt e.2 e.1).sum

/-- What a call has added to the counter and not subtracted again. -/
def net (r : Running) : BitVec 64 := shifted r.assigned - shifted r.released

@[simp] theorem net_start (call : Call) : (start call).net = 0 := by
  simp [net, start, shifted]

/-- One action changes the counter by what it enters in the books of the call. -/
theorem perform_loadCounter (b : AtomicLoad) (r : Running) :
    (r.perform b).1.loadCounter = b.loadCounter + ((r.perform b).2.net - r.net) := by
  unfold perform
  split
  case h_3 =>
    simp only [AtomicLoad.assign_loadCounter, net, shifted, List.map_cons, List.sum_cons]
    ring
  case h_5 =>
    simp only [AtomicLoad.finish_loadCounter, net, shifted, List.map_cons, List.sum_cons]
    ring
  all_goals simp [net]

@[simp] theorem perform_maxConnections (b : AtomicLoad) (r : Running) :
    (r.perform b).1.maxConnections = b.maxConnections := by
  unfold perform
  split <;> simp

end Running

namespace Pool

variable {n : Nat} {b : AtomicLoad} {calls : Fin n → Call}

/-- The rule for runs: what holds at the start and is kept by each step holds throughout. -/
theorem run_invariant {I : List (Fin n) → Pool n → Prop} {p : Pool n}
    (hstart : I [] p)
    (hstep : ∀ schedule q i, I schedule q → I (schedule ++ [i]) (q.step i))
    (schedule : List (Fin n)) : I schedule (p.run schedule) := by
  induction schedule using List.reverseRecOn with
  | nil => exact hstart
  | append_singleton schedule i ih =>
    rw [run, List.foldl_append]
    exact hstep schedule _ i ih

theorem step_net (p : Pool n) (i : Fin n) :
    ∑ k, ((p.step i).running k).net =
      ∑ k, (p.running k).net +
        (((p.running i).perform p.balancer).2.net - (p.running i).net) := by
  have hnew : ∀ k, ((p.step i).running k).net =
      Function.update (fun k => (p.running k).net) i
        ((p.running i).perform p.balancer).2.net k := by
    intro k
    by_cases hk : k = i
    · subst hk
      simp [step]
    · simp [step, hk]
  have hsplit := Finset.add_sum_erase Finset.univ (fun k => (p.running k).net)
    (Finset.mem_univ i)
  rw [Finset.sum_congr rfl fun k _ => hnew k, Finset.sum_update_of_mem (Finset.mem_univ i),
    ← hsplit, Finset.sdiff_singleton_eq_erase]
  ring

theorem run_loadCounter (b : AtomicLoad) (calls : Fin n → Call) (schedule : List (Fin n)) :
    ((start b calls).run schedule).balancer.loadCounter =
      b.loadCounter + ∑ i, (((start b calls).run schedule).running i).net := by
  refine run_invariant (I := fun _ p => p.balancer.loadCounter =
    b.loadCounter + ∑ i, (p.running i).net) ?_ ?_ schedule
  · simp [start]
  · intro _ p i ih
    rw [step_net, ← add_assoc, ← ih]
    exact Running.perform_loadCounter p.balancer (p.running i)

end Pool

/-! ## What a call does on its own -/

/-- The methods whose operations are all routed by the query id. -/
def Method.keyed : Method → Bool
  | .insert | .insertMany | .insertRows => true
  | .queryRaw | .queryRows => false

/-- An index that a call may be given. -/
def Call.RoutedTo (max : Nat) (call : Call) (idx : Nat) : Prop :=
  idx < max ∧ (call.method.keyed = true → idx = Qid.key call.qid % max)

namespace Running

/-- The next action of a call that is given the index `idx`. -/
def advance (idx : Nat) (r : Running) : Running :=
  match r.todo with
  | [] => r
  | .select _ _ :: todo => { r with todo, selected := idx }
  | .assign op finished :: todo =>
    { r with todo, assigned := (r.selected, op.weight finished) :: r.assigned }
  | .bindConnIdx :: todo => { r with todo, connIdx := r.selected }
  | .finish weight :: todo =>
    { r with todo, released := (r.connIdx, weight) :: r.released }

/-- The call after `k` actions, all with the index `idx`. -/
def progress (call : Call) (idx : Nat) : Nat → Running
  | 0 => start call
  | k + 1 => (progress call idx k).advance idx

@[simp] theorem progress_call (call : Call) (idx k : Nat) :
    (progress call idx k).call = call := by
  induction k with
  | zero => rfl
  | succ k ih =>
    rw [progress, advance]
    split <;> simpa using ih

@[simp] theorem advance_todo (idx : Nat) (r : Running) :
    (r.advance idx).todo = r.todo.tail := by
  unfold advance
  split <;> simp [*]

@[simp] theorem progress_todo (call : Call) (idx k : Nat) :
    (progress call idx k).todo = call.actions.drop k := by
  induction k with
  | zero => rfl
  | succ k ih => rw [progress, advance_todo, ih, List.tail_drop]

theorem perform_of_not_select {b : AtomicLoad} {r : Running} (idx : Nat)
    (h : ∀ op finished todo, r.todo ≠ .select op finished :: todo) :
    (r.perform b).2 = r.advance idx := by
  unfold perform advance
  split <;> simp_all

theorem perform_of_select {b : AtomicLoad} {r : Running} {op : OperationKind}
    {finished : Bool} {todo : List Action} (h : r.todo = .select op finished :: todo) :
    (r.perform b).2 = r.advance (b.select (op.key finished r.call.qid)) := by
  simp [perform, advance, h]

end Running

namespace Client

theorem select_mem_await {op : OperationKind} {finished : Bool} {reply : Reply}
    {next : List Action} (h : .select op finished ∈ await reply next) :
    .select op finished ∈ next := by
  unfold await at h
  split at h
  · exact h
  · simp at h

theorem select_mem_sendOperation {op op' : OperationKind} {finished finished' : Bool}
    {sending : Sending} {next : List Action}
    (h : .select op finished ∈ sendOperation op' finished' sending next) :
    (op = op' ∧ finished = finished') ∨ .select op finished ∈ next := by
  unfold sendOperation at h
  split at h <;> simp at h
  · exact h
  · exact Or.inl h

end Client

/-- A call whose method is keyed selects by its query id only. -/
theorem Call.key_of_keyed {call : Call} (hkeyed : call.method.keyed = true)
    {op : OperationKind} {finished : Bool} (h : .select op finished ∈ call.actions) :
    op.key finished call.qid = some (Qid.key call.qid) := by
  have hkey : (op = .query ∧ finished = false) ∨ op = .insert ∨ op = .insertMany := by
    obtain ⟨method, qid, o⟩ := call
    cases method with
    | queryRaw => cases hkeyed
    | queryRows => cases hkeyed
    | insert =>
      rcases Client.select_mem_sendOperation h with hquery | h
      · exact Or.inl hquery
      · have h := Client.select_mem_await (List.mem_of_ne_of_mem (by simp) h)
        rcases Client.select_mem_sendOperation h with hinsert | h
        · exact Or.inr (Or.inl hinsert.1)
        · simpa using Client.select_mem_await h
    | insertMany =>
      rcases Client.select_mem_sendOperation h with hquery | h
      · exact Or.inl hquery
      · have h := Client.select_mem_await (List.mem_of_ne_of_mem (by simp) h)
        rcases Client.select_mem_sendOperation h with hinsert | h
        · exact Or.inr (Or.inr hinsert.1)
        · simpa using Client.select_mem_await h
    | insertRows =>
      rcases Client.select_mem_sendOperation h with hquery | h
      · exact Or.inl hquery
      · have h := Client.select_mem_await (List.mem_of_ne_of_mem (by simp) h)
        have h := Client.select_mem_await h
        split at h
        · rcases Client.select_mem_sendOperation h with hinsert | h
          · exact Or.inr (Or.inl hinsert.1)
          · simpa using Client.select_mem_await h
        · simp at h
  rw [OperationKind.key, if_pos hkey]

/-- A call whose method is not keyed selects once, with its first action. -/
theorem Call.select_first {call : Call} (hkeyed : call.method.keyed = false)
    {op : OperationKind} {finished : Bool} {k : Nat}
    (h : call.actions[k]? = some (.select op finished)) : k = 0 := by
  obtain ⟨method, qid, o⟩ := call
  have hlater (next : List Action) (hnext : .select op finished ∉ next)
      (hactions : Call.actions ⟨method, qid, o⟩ =
        Client.sendOperation .query true o.query next) : k = 0 := by
    rw [hactions, Client.sendOperation] at h
    rcases k with - | - | k
    · rfl
    · simp at h
    · rw [List.getElem?_cons_succ, List.getElem?_cons_succ] at h
      split at h
      · exact absurd (List.mem_of_getElem? h) hnext
      · simp at h
  cases method with
  | insert => cases hkeyed
  | insertMany => cases hkeyed
  | insertRows => cases hkeyed
  | queryRaw =>
    refine hlater _ ?_ rfl
    intro h
    simpa using Client.select_mem_await (List.mem_of_ne_of_mem (by simp) h)
  | queryRows =>
    refine hlater _ ?_ rfl
    intro h
    have h := Client.select_mem_await (List.mem_of_ne_of_mem (by simp) h)
    simpa using Client.select_mem_await h

namespace Pool

variable {n : Nat} {b : AtomicLoad} {calls : Fin n → Call}

/-- Each call has made as many actions as the schedule names it, all on one index. -/
def Advanced (b : AtomicLoad) (calls : Fin n → Call) (schedule : List (Fin n))
    (p : Pool n) : Prop :=
  p.balancer.maxConnections = b.maxConnections ∧
    ∀ i, ∃ idx, (calls i).RoutedTo b.maxConnections idx ∧
      p.running i = Running.progress (calls i) idx (schedule.count i)

/-- One action of a call that has so far used one index leaves it with one index. -/
theorem perform_progress {b' : AtomicLoad} {call : Call} {idx k : Nat}
    (hmax : b'.maxConnections = b.maxConnections)
    (hidx : call.RoutedTo b.maxConnections idx) :
    ∃ idx', call.RoutedTo b.maxConnections idx' ∧
      ((Running.progress call idx k).perform b').2 = Running.progress call idx' (k + 1) := by
  by_cases hselect : ∃ op finished todo,
      (Running.progress call idx k).todo = .select op finished :: todo
  · obtain ⟨op, finished, todo, htodo⟩ := hselect
    have hget : call.actions[k]? = some (.select op finished) := by
      rw [Running.progress_todo] at htodo
      rw [← List.head?_drop, htodo, List.head?_cons]
    rw [Running.perform_of_select htodo, Running.progress_call]
    cases hkeyed : call.method.keyed with
    | true =>
      -- the key is the query id's, so that the same index is selected again
      refine ⟨idx, hidx, ?_⟩
      rw [call.key_of_keyed hkeyed (List.mem_of_getElem? hget), AtomicLoad.select, hmax,
        ← hidx.2 hkeyed]
      rfl
    | false =>
      -- the first action: no index has been used before
      have hk := call.select_first hkeyed hget
      subst hk
      refine ⟨_, ⟨?_, ?_⟩, rfl⟩
      · rw [← hmax]
        exact b'.select_lt _
      · simp [hkeyed]
  · refine ⟨idx, hidx, Running.perform_of_not_select idx ?_⟩
    intro op finished todo htodo
    exact hselect ⟨op, finished, todo, htodo⟩

theorem run_advanced (b : AtomicLoad) (calls : Fin n → Call) (schedule : List (Fin n)) :
    Advanced b calls schedule ((start b calls).run schedule) := by
  refine run_invariant ?_ ?_ schedule
  · refine ⟨rfl, fun i => ?_⟩
    exact ⟨Qid.key (calls i).qid % b.maxConnections,
      ⟨Nat.mod_lt _ b.atLeastOne, fun _ => rfl⟩, by simp [start, Running.progress]⟩
  · intro schedule p i ih
    obtain ⟨hmax, hcalls⟩ := ih
    refine ⟨by simpa [step] using hmax, fun k => ?_⟩
    obtain ⟨idx, hidx, hrunning⟩ := hcalls k
    by_cases hk : k = i
    · subst hk
      obtain ⟨idx', hidx', hnext⟩ := perform_progress (k := schedule.count k) hmax hidx
      refine ⟨idx', hidx', ?_⟩
      simp [step, hrunning, hnext]
    · refine ⟨idx, hidx, ?_⟩
      simp [step, hk, hrunning, List.count_append, Ne.symm hk]

end Pool

/-! ## The books of a call that settles, and of one that does not -/

namespace Running

theorem advance_of_todo_nil {r : Running} (h : r.todo = []) (idx : Nat) :
    r.advance idx = r := by
  simp [advance, h]

/-- A call that has returned stays as it is. -/
theorem progress_returned {call : Call} {m : Nat} (hm : call.actions.length ≤ m)
    (idx k : Nat) : progress call idx (m + k) = progress call idx m := by
  induction k with
  | zero => rfl
  | succ k ih =>
    rw [← Nat.add_assoc, progress, advance_of_todo_nil, ih]
    simp only [progress_todo, List.drop_eq_nil_iff]
    omega

/-- The books of a call have an entry for each connection that is not negative, and
nothing is left in them before the call and after it. -/
def Settled (r : Running) : Prop :=
  (∀ j, weightOn j r.released ≤ weightOn j r.assigned) ∧ (r.AtRest → r.net = 0)

end Running

section Books

attribute [local simp] Running.progress Running.start Running.advance Running.weightOn
  Running.net Running.shifted Running.AtRest OperationKind.weight

/-- A call that adds two weights and subtracts their sum. -/
theorem settled_of_two {call : Call} (op : OperationKind) {weight : Nat}
    (hactions : call.actions =
      [.select .query false, .assign .query false, .bindConnIdx, .select op true,
        .assign op true, .finish weight])
    (hweight : op.weight true + 3 = weight) (idx k : Nat) :
    (Running.progress call idx k).Settled := by
  have hnet : AtomicLoad.weightAt (op.weight true) idx + AtomicLoad.weightAt 3 idx =
      AtomicLoad.weightAt weight idx := by
    rw [← AtomicLoad.weightAt_add, hweight]
  rcases k with - | - | - | - | - | - | k
  case succ.succ.succ.succ.succ.succ =>
    rw [show k + 1 + 1 + 1 + 1 + 1 + 1 = 6 + k by omega,
      Running.progress_returned (by simp [hactions])]
    constructor
    · intro j
      by_cases hj : idx = j
      · simp [hactions, hj, ← hweight]
      · simp [hactions, hj]
    · intro _
      simp [hactions, ← hnet]
  all_goals
    -- nothing is released before the last action, and nothing is assigned before the second
    constructor
    · intro j
      simp [hactions]
    · intro hrest
      simp [hactions] at hrest ⊢

/-- A call that adds one weight and subtracts it. -/
theorem settled_of_one {call : Call}
    (hactions : call.actions =
      [.select .query true, .assign .query true, .bindConnIdx, .finish 1]) (idx k : Nat) :
    (Running.progress call idx k).Settled := by
  rcases k with - | - | - | - | k
  case succ.succ.succ.succ =>
    rw [show k + 1 + 1 + 1 + 1 = 4 + k by omega,
      Running.progress_returned (by simp [hactions])]
    constructor
    · intro j
      by_cases hj : idx = j
      · simp [hactions, hj]
      · simp [hactions, hj]
    · intro _
      simp [hactions]
  all_goals
    constructor
    · intro j
      simp [hactions]
    · intro hrest
      simp [hactions] at hrest ⊢

theorem Call.Settles.settled {call : Call} (h : call.Settles) (idx k : Nat) :
    (Running.progress call idx k).Settled := by
  obtain ⟨method, qid, o⟩ := call
  cases method with
  | insert =>
    obtain ⟨hquery, hresponses, hinsert, hinserted⟩ := h
    refine settled_of_two .insert ?_ rfl idx k
    simp_all [Call.actions, Client.insert, Client.sendOperation, Client.await]
    rfl
  | insertMany =>
    obtain ⟨hquery, hresponses, hinsert, hinserted⟩ := h
    refine settled_of_two .insertMany ?_ rfl idx k
    simp_all [Call.actions, Client.insertMany, Client.sendOperation, Client.await]
    rfl
  | queryRaw =>
    obtain ⟨hquery, hresponses⟩ := h
    refine settled_of_one ?_ idx k
    simp_all [Call.actions, Client.queryRaw, Client.sendOperation, Client.await]
    rfl
  | insertRows => cases h
  | queryRows => cases h

/-- What a call does that leaves a weight on its connection, or takes off more than it
has added. -/
inductive Unsettled : List Action → Prop
  | query (finished : Bool) :
    Unsettled [.select .query finished, .assign .query finished]
  | responses (finished : Bool) :
    Unsettled [.select .query finished, .assign .query finished, .bindConnIdx]
  | inserted (op : OperationKind) (h : 0 < op.weight true) :
    Unsettled [.select .query false, .assign .query false, .bindConnIdx,
      .select op true, .assign op true]
  | insertRows :
    Unsettled [.select .query false, .assign .query false, .bindConnIdx,
      .select .insert true, .assign .insert true, .finish 1]
  | queryRows :
    Unsettled [.select .query true, .assign .query true, .bindConnIdx, .finish 6]

namespace Client

/-- A query that is not sent, or whose responses do not arrive, is the end of a call. -/
theorem unsettled_query {finished : Bool} {o : Outcomes} {next : List Action}
    (h : o.query = .sent → o.responses = .ok →
      Unsettled (.select .query finished :: .assign .query finished :: .bindConnIdx :: next)) :
    Unsettled (sendOperation .query finished o.query
      (.bindConnIdx :: await o.responses next)) := by
  unfold sendOperation await
  split
  · split
    · exact h ‹_› ‹_›
    · exact .responses finished
  · exact .query finished

/-- So is an insert. -/
theorem unsettled_insert {op : OperationKind} (hop : 0 < op.weight true) {o : Outcomes}
    {next : List Action}
    (h : o.insert = .sent → o.inserted = .ok →
      Unsettled (.select .query false :: .assign .query false :: .bindConnIdx ::
        .select op true :: .assign op true :: next)) :
    Unsettled (.select .query false :: .assign .query false :: .bindConnIdx ::
      sendOperation op true o.insert (await o.inserted next)) := by
  unfold sendOperation await
  split
  · split
    · exact h ‹_› ‹_›
    · exact .inserted op hop
  · exact .inserted op hop

end Client

theorem Call.unsettled {call : Call} (h : ¬ call.Settles) : Unsettled call.actions := by
  obtain ⟨method, qid, o⟩ := call
  cases method with
  | insert =>
    refine Client.unsettled_query fun hquery hresponses => ?_
    refine Client.unsettled_insert (by decide) fun hinsert hinserted => ?_
    exact absurd ⟨hquery, hresponses, hinsert, hinserted⟩ h
  | insertMany =>
    refine Client.unsettled_query fun hquery hresponses => ?_
    refine Client.unsettled_insert (by decide) fun hinsert hinserted => ?_
    exact absurd ⟨hquery, hresponses, hinsert, hinserted⟩ h
  | queryRaw =>
    refine Client.unsettled_query fun hquery hresponses => ?_
    exact absurd ⟨hquery, hresponses⟩ h
  | insertRows =>
    refine Client.unsettled_query fun _ _ => ?_
    unfold Client.await
    split
    · split
      · exact Client.unsettled_insert (by decide) fun _ _ => .insertRows
      · exact .responses false
    · exact .responses false
  | queryRows =>
    refine Client.unsettled_query fun _ _ => ?_
    unfold Client.await
    split
    · exact .queryRows
    · exact .responses true

/-- The books of a call that has returned unsettled: a weight is left on its connection, or
six are released where one was assigned. -/
theorem books_of_unsettled {call : Call} (h : Unsettled call.actions) (idx : Nat) :
    (Running.progress call idx 6).todo = [] ∧
      ((∃ weight, 0 < weight ∧ weight < 256 ∧
        (Running.progress call idx 6).net = AtomicLoad.weightAt weight idx) ∨
      ((Running.progress call idx 6).assigned = [(idx, 1)] ∧
        (Running.progress call idx 6).released = [(idx, 6)])) := by
  generalize hactions : call.actions = actions at h
  cases h with
  | query finished =>
    refine ⟨by simp [hactions], Or.inl ⟨OperationKind.weight .query finished, ?_⟩⟩
    cases finished <;> simp [hactions]
  | responses finished =>
    refine ⟨by simp [hactions], Or.inl ⟨OperationKind.weight .query finished, ?_⟩⟩
    cases finished <;> simp [hactions]
  | inserted op hop =>
    refine ⟨by simp [hactions], Or.inl ⟨op.weight true + 3, by omega, ?_, ?_⟩⟩
    · cases op <;> simp
    · rw [AtomicLoad.weightAt_add]
      simp [hactions]
  | insertRows =>
    refine ⟨by simp [hactions], Or.inl ⟨4, by omega, by omega, ?_⟩⟩
    have hfive : AtomicLoad.weightAt 2 idx + AtomicLoad.weightAt 3 idx =
        AtomicLoad.weightAt 4 idx + AtomicLoad.weightAt 1 idx := by
      rw [← AtomicLoad.weightAt_add, ← AtomicLoad.weightAt_add]
    simp [hactions, hfive]
  | queryRows => exact ⟨by simp [hactions], Or.inr (by simp [hactions])⟩

end Books

namespace Pool

variable {n : Nat} {b : AtomicLoad} {calls : Fin n → Call}

theorem loadBalances_of_settles (h : ∀ i, (calls i).Settles) : LoadBalances b calls := by
  intro schedule
  obtain ⟨-, hcalls⟩ := run_advanced b calls schedule
  have hsettled : ∀ i, (((start b calls).run schedule).running i).Settled := by
    intro i
    obtain ⟨idx, -, hrunning⟩ := hcalls i
    rw [hrunning]
    exact (h i).settled idx _
  constructor
  · intro j
    exact Finset.sum_le_sum fun i _ => (hsettled i).1 j
  · intro hrest
    rw [run_loadCounter, Finset.sum_eq_zero fun i _ => (hsettled i).2 (hrest i), add_zero]

/-- A run of one call, from its beginning to its return. -/
theorem run_alone (b : AtomicLoad) (calls : Fin n → Call) (i : Fin n) :
    ∃ idx < b.maxConnections,
      ((start b calls).run (List.replicate 6 i)).running i =
        Running.progress (calls i) idx 6 ∧
      ∀ k ≠ i, ((start b calls).run (List.replicate 6 i)).running k =
        Running.start (calls k) := by
  obtain ⟨-, hcalls⟩ := run_advanced b calls (List.replicate 6 i)
  obtain ⟨idx, hidx, hrunning⟩ := hcalls i
  refine ⟨idx, hidx.1, by simpa using hrunning, fun k hk => ?_⟩
  obtain ⟨idx', -, hother⟩ := hcalls k
  rw [hother, List.count_replicate, if_neg (by simpa using Ne.symm hk)]
  rfl

/-- The load accounting balances exactly for the calls that settle. -/
theorem loadBalances_iff_settles (b : AtomicLoad) (calls : Fin n → Call) :
    LoadBalances b calls ↔ ∀ i, (calls i).Settles := by
  refine ⟨fun h i => ?_, loadBalances_of_settles⟩
  by_contra hunsettled
  obtain ⟨idx, hidx, hrunning, hothers⟩ := run_alone b calls i
  -- the call runs to its end alone, and the others have not begun
  obtain ⟨hreleased, hcounter⟩ := h (List.replicate 6 i)
  obtain ⟨htodo, hbooks⟩ := books_of_unsettled (Call.unsettled hunsettled) idx
  have hrest : ((start b calls).run (List.replicate 6 i)).AtRest := by
    intro k
    by_cases hk : k = i
    · subst hk
      rw [hrunning]
      exact Or.inl htodo
    · rw [hothers k hk]
      exact Or.inr rfl
  rcases hbooks with ⟨weight, hpos, hweight, hnet⟩ | ⟨hassigned, hsubtracted⟩
  · -- the weight stays on the counter
    have hsum := run_loadCounter b calls (List.replicate 6 i)
    rw [hcounter hrest, Finset.sum_eq_single i ?_ (by simp), hrunning, hnet] at hsum
    · refine AtomicLoad.weightAt_ne_zero hpos hweight ?_ (by simpa using hsum)
      exact lt_of_lt_of_le hidx b.atMostFour
    · intro k _ hk
      rw [hothers k hk, Running.net_start]
  · -- more is released than assigned
    have hsingle (books : Running → List (Nat × Nat))
        (hstart : ∀ call, books (Running.start call) = []) :
        ∑ k, Running.weightOn idx
          (books (((start b calls).run (List.replicate 6 i)).running k)) =
            Running.weightOn idx (books (Running.progress (calls i) idx 6)) := by
      rw [← hrunning]
      refine Finset.sum_eq_single i (fun k _ hk => ?_) (by simp)
      rw [hothers k hk, hstart]
      rfl
    have hle := hreleased idx
    rw [released, assigned, hsingle Running.released fun _ => rfl,
      hsingle Running.assigned fun _ => rfl, hassigned, hsubtracted] at hle
    simp [Running.weightOn] at hle

/-- `query_rows` and `insert_rows` do not balance, also where nothing goes wrong. -/
theorem not_loadBalances_samples :
    (¬ LoadBalances ⟨0, 2, by decide, by decide⟩
      fun _ : Fin 1 => ⟨.queryRows, [], ⟨.sent, .ok, .ok, true, .sent, .ok⟩⟩) ∧
    (¬ LoadBalances ⟨0, 2, by decide, by decide⟩
      fun _ : Fin 1 => ⟨.insertRows, [], ⟨.sent, .ok, .ok, true, .sent, .ok⟩⟩) := by
  constructor
  · intro h
    have := (h (List.replicate 4 0)).1 0
    revert this
    decide
  · intro h
    have := (h (List.replicate 6 0)).2
    revert this
    decide

end Pool

end ClickhouseArrow
