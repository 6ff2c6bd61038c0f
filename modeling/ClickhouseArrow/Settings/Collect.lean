import ClickhouseArrow.Transition.Loop
import ClickhouseArrow.Settings.Ignored

/-!
# Collecting settings and parameters

`From` builds settings and query parameters from pairs.  `FromIterator` is written with
`collect`, and `collect` is `from_iter` of the collection it returns: the two call each other
without end, with the same iterator.  The parameters of a query become settings by `collect`,
so a query with parameters is never sent; `From` of the same pairs would have returned.
-/

namespace ClickhouseArrow

open Wire Transition

/-- `QueryParams`. -/
abbrev QueryParams := List (String × SettingValue)

/-- The iterators that are collected: the one of a caller, with its own keys and values, and
the one of query parameters. -/
inductive Pairs (K S : Type)
  | given (pairs : List (K × S))
  | ofParams (params : QueryParams)

namespace Pairs

variable {K S : Type} (intoKey : K → String) (intoValue : S → SettingValue)

/-- The items, after `into` of keys and values. -/
def items : Pairs K S → List (String × SettingValue)
  | given pairs => pairs.map fun p => (intoKey p.1, intoValue p.2)
  | ofParams params => params

end Pairs

namespace Settings

/-- The calls between the conversions to `Settings`. -/
inductive Call (K S : Type)
  /-- `From<T> for Settings`. -/
  | ofPairs (iter : Pairs K S)
  /-- `FromIterator for Settings`. -/
  | fromIter (iter : Pairs K S)
  /-- `Iterator::collect` into `Settings`. -/
  | collect (iter : Pairs K S)
  /-- `From<QueryParams> for Settings`. -/
  | ofParams (params : QueryParams)

variable {K S : Type} (intoKey : K → String) (intoValue : S → SettingValue)

/-- `Settings::from`. -/
def ofPairs (iter : Pairs K S) : List Setting :=
  (iter.items intoKey intoValue).map fun p =>
    { key := p.1, value := p.2, important := false, custom := false }

/-- What the body of each conversion does: it returns, or it is the next call. -/
def turn : Call K S → Turn (Call K S) (List Setting)
  | .ofPairs iter => .done (ofPairs intoKey intoValue iter)
  | .fromIter iter => .again (.collect iter)
  | .collect iter => .again (.fromIter iter)
  | .ofParams params => .again (.collect (.ofParams params))

/-- **`From` keeps every pair**, in order. -/
theorem ofPairs_entries (iter : Pairs K S) :
    (ofPairs intoKey intoValue iter).map entry = iter.items intoKey intoValue := by
  rw [ofPairs, List.map_map]
  exact List.map_id _

/-- **`From` returns.** -/
theorem ofPairs_returns (iter : Pairs K S) :
    Loop.Returns (turn intoKey intoValue) (.ofPairs iter) (ofPairs intoKey intoValue iter) := by
  have hturn : turn intoKey intoValue (.ofPairs iter) =
      .done (ofPairs intoKey intoValue iter) := rfl
  exact (Loop.returns_done hturn).mpr rfl

/-- The calls that lead to each other without end. -/
inductive IsCollecting : Call K S → Prop
  | fromIter (iter : Pairs K S) : IsCollecting (.fromIter iter)
  | collect (iter : Pairs K S) : IsCollecting (.collect iter)
  | ofParams (params : QueryParams) : IsCollecting (.ofParams params)

theorem turn_isCollecting {call : Call K S} (h : IsCollecting call) :
    ∃ call', turn intoKey intoValue call = .again call' ∧ IsCollecting call' := by
  cases h with
  | fromIter iter => exact ⟨_, rfl, .collect iter⟩
  | collect iter => exact ⟨_, rfl, .fromIter iter⟩
  | ofParams params => exact ⟨_, rfl, .collect (.ofParams params)⟩

/-- **A conversion that goes through `collect` never returns.** -/
theorem collecting_never_returns {call : Call K S} (h : IsCollecting call)
    (settings : List Setting) : ¬ Loop.Returns (turn intoKey intoValue) call settings :=
  Loop.not_returns (fun _ h => turn_isCollecting intoKey intoValue h) h

end Settings

namespace QueryParams

/-- The calls between the conversions to `QueryParams`. -/
inductive Call (K S : Type)
  /-- `From<T> for QueryParams`. -/
  | ofPairs (iter : Pairs K S)
  /-- `FromIterator for QueryParams`. -/
  | fromIter (iter : Pairs K S)
  /-- `Iterator::collect` into `QueryParams`. -/
  | collect (iter : Pairs K S)

variable {K S : Type} (intoKey : K → String) (intoValue : S → SettingValue)

/-- `QueryParams::from`. -/
def ofPairs (iter : Pairs K S) : QueryParams := iter.items intoKey intoValue

/-- What the body of each conversion does. -/
def turn : Call K S → Turn (Call K S) QueryParams
  | .ofPairs iter => .done (ofPairs intoKey intoValue iter)
  | .fromIter iter => .again (.collect iter)
  | .collect iter => .again (.fromIter iter)

/-- **`From` returns.** -/
theorem ofPairs_returns (iter : Pairs K S) :
    Loop.Returns (turn intoKey intoValue) (.ofPairs iter) (ofPairs intoKey intoValue iter) := by
  have hturn : turn intoKey intoValue (.ofPairs iter) =
      .done (ofPairs intoKey intoValue iter) := rfl
  exact (Loop.returns_done hturn).mpr rfl

/-- **`from_iter` never returns.** -/
theorem fromIter_never_returns (iter : Pairs K S) (params : QueryParams) :
    ¬ Loop.Returns (turn intoKey intoValue) (.fromIter iter) params := by
  apply Loop.not_returns (I := fun call => call = .fromIter iter ∨ call = .collect iter)
  · rintro call (rfl | rfl)
    · exact ⟨_, rfl, Or.inr rfl⟩
    · exact ⟨_, rfl, Or.inl rfl⟩
  · exact Or.inl rfl

end QueryParams

/-! ## Sending a query -/

/-- `DBMS_MIN_PROTOCOL_VERSION_WITH_PARAMETERS`. -/
def minProtocolVersionWithParameters : Nat := 54459

/-- `send_query` from where the text of the query is written: at its parameters, and in a
conversion that they have called. -/
inductive SendingParams
  | start (params : Option QueryParams)
  | converting (call : Settings.Call String SettingValue)

namespace SendingParams

/-- The parameters in `send_query`: what it writes for them, or the conversion it is in. -/
def turn (f64Display : UInt64 → String) (revision : Nat) :
    SendingParams → Turn SendingParams (Outcome SettingError Bytes)
  | start params =>
      if minProtocolVersionWithParameters ≤ revision then
        match params with
        | some queryParams => .again (converting (.ofParams queryParams))
        | none => .done (.ok (writeString []))
      else .done (.ok [])
  | converting call =>
      match Settings.turn id id call with
      | .again call' => .again (converting call')
      | .done settings => .done (do
          let bytes ← Settings.encode f64Display settings revision
          .ok (bytes ++ writeString []))

variable {f64Display : UInt64 → String} {revision : Nat}

theorem converting_never_returns {call : Settings.Call String SettingValue}
    (h : Settings.IsCollecting call) (out : Outcome SettingError Bytes) :
    ¬ Loop.Returns (turn f64Display revision) (converting call) out := by
  apply Loop.not_returns (I := fun s => ∃ call, s = converting call ∧ Settings.IsCollecting call)
  · rintro s ⟨call, rfl, hcall⟩
    obtain ⟨call', hturn, hcall'⟩ := Settings.turn_isCollecting id id hcall
    exact ⟨converting call', by rw [turn, hturn], call', rfl, hcall'⟩
  · exact ⟨call, rfl, h⟩

/-- **A query is sent only without parameters**, or to a server that takes none. -/
theorem start_returns_iff (params : Option QueryParams) :
    (∃ out, Loop.Returns (turn f64Display revision) (start params) out) ↔
      revision < minProtocolVersionWithParameters ∨ params = none := by
  by_cases hrev : minProtocolVersionWithParameters ≤ revision
  · cases params with
    | none =>
        have hturn : turn f64Display revision (start none) = .done (.ok (writeString [])) := by
          rw [turn, if_pos hrev]
        exact iff_of_true ⟨_, (Loop.returns_done hturn).mpr rfl⟩ (Or.inr rfl)
    | some queryParams =>
        have hturn : turn f64Display revision (start (some queryParams)) =
            .again (converting (.ofParams queryParams)) := by
          rw [turn, if_pos hrev]
        refine iff_of_false ?_ (by simp [hrev])
        rintro ⟨out, hout⟩
        exact converting_never_returns (.ofParams queryParams) out
          ((Loop.returns_again hturn).mp hout)
  · have hturn : turn f64Display revision (start params) = .done (.ok []) := by
      cases params <;> rw [turn, if_neg hrev]
    exact iff_of_true ⟨_, (Loop.returns_done hturn).mpr rfl⟩ (Or.inl (by omega))

end SendingParams

/-- Collecting pairs gives what `From` gives for them, parameters become settings, and a query
with parameters is sent. -/
structure Collects {K S : Type} (intoKey : K → String) (intoValue : S → SettingValue)
    (pairs : List (K × S)) (params : QueryParams) : Prop where
  settings : Loop.Returns (Settings.turn intoKey intoValue) (.fromIter (.given pairs))
    (Settings.ofPairs intoKey intoValue (.given pairs))
  queryParams : Loop.Returns (QueryParams.turn intoKey intoValue) (.fromIter (.given pairs))
    (QueryParams.ofPairs intoKey intoValue (.given pairs))
  ofParams : Loop.Returns (Settings.turn intoKey intoValue) (.ofParams params)
    (Settings.ofPairs intoKey intoValue (.ofParams params))
  sends : params ≠ [] → ∀ f64Display revision,
    ∃ out, Loop.Returns (SendingParams.turn f64Display revision) (.start (some params)) out

/-- **No pairs are ever collected**: not one of the three conversions returns anything, and a
query with parameters is sent only to a server that takes none. -/
theorem Collects.never {K S : Type} (intoKey : K → String) (intoValue : S → SettingValue)
    (pairs : List (K × S)) (params : QueryParams) :
    ¬ Collects intoKey intoValue pairs params ∧
      (∀ settings, ¬ Loop.Returns (Settings.turn intoKey intoValue) (.fromIter (.given pairs))
        settings) ∧
      (∀ collected, ¬ Loop.Returns (QueryParams.turn intoKey intoValue)
        (.fromIter (.given pairs)) collected) ∧
      (∀ settings, ¬ Loop.Returns (Settings.turn intoKey intoValue) (.ofParams params)
        settings) ∧
      ∀ f64Display revision,
        (∃ out, Loop.Returns (SendingParams.turn f64Display revision) (.start (some params))
          out) ↔ revision < minProtocolVersionWithParameters := by
  have hsettings := Settings.collecting_never_returns intoKey intoValue (.fromIter (.given pairs))
  refine ⟨fun h => hsettings _ h.settings, hsettings, ?_, ?_, ?_⟩
  · exact QueryParams.fromIter_never_returns intoKey intoValue (.given pairs)
  · exact Settings.collecting_never_returns intoKey intoValue (.ofParams params)
  · intro f64Display revision
    rw [SendingParams.start_returns_iff]
    simp

/-- One setting is enough, and one parameter. -/
theorem not_collects_sample :
    ¬ Collects id SettingValue.int [("max_threads", 8)] [("id", .int 1)] := by
  intro h
  exact Settings.collecting_never_returns id SettingValue.int (.fromIter _) _ h.settings

end ClickhouseArrow
