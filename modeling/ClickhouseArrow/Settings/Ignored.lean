import ClickhouseArrow.Settings.Setting
import ClickhouseArrow.Settings.LastWins

/-!
# Settings the server has already

A query sends the settings of its compression and its own, and leaves out those of its own
that the server announced with the same value.  The server does not notice unless the last
setting of a key is left out and the key has been set to something else before: by the
compression, by an earlier setting of the query, or by a later one of the server's own.
-/

namespace ClickhouseArrow

open Wire

/-- `PartialEq` of `SettingValue`, which is that of `f64` for floats. -/
def SettingValue.eq : SettingValue → SettingValue → Bool
  | .int i, .int j => i == j
  | .bool b, .bool c => b == c
  | .float bits, .float bits' => Float64.eqBits bits bits'
  | .string s, .string s' => s == s'
  | _, _ => false

namespace Settings

/-- `Settings::get`: the first setting of the key. -/
def get (settings : List Setting) (key : String) : Option Setting :=
  settings.find? fun s => s.key = key

/-- The test of `encode_with_ignore`. -/
def isIgnored (ignore : List Setting) (setting : Setting) : Bool :=
  (get ignore setting.key).any fun s => s.value.eq setting.value

/-- `Settings::encode_with_ignore`. -/
def encodeWithIgnore (f64Display : UInt64 → String) (revision : Nat) (ignore : List Setting) :
    List Setting → Outcome SettingError Bytes
  | [] => .ok []
  | setting :: settings =>
      if isIgnored ignore setting then encodeWithIgnore f64Display revision ignore settings
      else do
        let bytes ← setting.encode f64Display revision
        let rest ← encodeWithIgnore f64Display revision ignore settings
        .ok (bytes ++ rest)

/-- The settings of `send_query`: those of the compression, and those of the query. -/
def send (f64Display : UInt64 → String) (revision : Nat) (compression settings : List Setting)
    (serverSettings : Option (List Setting)) : Outcome SettingError Bytes := do
  let first ← encode f64Display compression revision
  let rest ← (match serverSettings with
    | some ignore => encodeWithIgnore f64Display revision ignore settings
    | none => encode f64Display settings revision)
  .ok (first ++ rest)

/-- The settings that are written. -/
def sent (compression settings : List Setting) : Option (List Setting) → List Setting
  | some ignore => compression ++ settings.filter fun s => !isIgnored ignore s
  | none => compression ++ settings

theorem encodeWithIgnore_eq (f64Display : UInt64 → String) (revision : Nat)
    (ignore settings : List Setting) :
    encodeWithIgnore f64Display revision ignore settings =
      encode f64Display (settings.filter fun s => !isIgnored ignore s) revision := by
  induction settings with
  | nil => rfl
  | cons setting settings ih =>
      rw [encodeWithIgnore, List.filter_cons, ih]
      cases isIgnored ignore setting <;> rfl

theorem encode_append (f64Display : UInt64 → String) (revision : Nat) (ss ss' : List Setting) :
    encode f64Display (ss ++ ss') revision =
      (do
        let bytes ← encode f64Display ss revision
        let rest ← encode f64Display ss' revision
        .ok (bytes ++ rest)) := by
  induction ss with
  | nil =>
      show encode f64Display ss' revision = (encode f64Display ss' revision >>= fun bytes => .ok bytes)
      exact (bind_pure _).symm
  | cons s ss ih =>
      show (s.encode f64Display revision >>= fun bytes =>
        encode f64Display (ss ++ ss') revision >>= fun rest => .ok (bytes ++ rest)) = _
      rw [ih]
      show _ = ((s.encode f64Display revision >>= fun bytes =>
        encode f64Display ss revision >>= fun rest => .ok (bytes ++ rest)) >>= _)
      simp only [bind_assoc, Outcome.ok_bind, List.append_assoc]

/-- **What `send_query` writes is the settings that are sent.** -/
theorem send_eq (f64Display : UInt64 → String) (revision : Nat) (compression settings : List Setting)
    (serverSettings : Option (List Setting)) :
    send f64Display revision compression settings serverSettings =
      encode f64Display (sent compression settings serverSettings) revision := by
  cases serverSettings with
  | none => rw [sent, encode_append, send]
  | some ignore => rw [sent, encode_append, send, encodeWithIgnore_eq]

/-! ## The server's view -/

/-- Key and value. -/
def entry (s : Setting) : String × SettingValue := (s.key, s.value)

/-- The settings in force after those that are sent to a server with its own settings. -/
def effective (server sent : List Setting) : String → Option SettingValue :=
  LastWins.apply (LastWins.apply (fun _ => none) (server.map entry)) (sent.map entry)

/-- The last setting of the key. -/
def last (settings : List Setting) (key : String) : Option Setting :=
  settings.reverse.find? fun s => s.key = key

/-- Leaving out what the server has changes no setting in force. -/
def IgnoresUnnoticed (server compression settings : List Setting) : Prop :=
  ∀ key, effective server (sent compression settings (some server)) key =
    effective server (sent compression settings none) key

theorem lastWrite_entries (settings : List Setting) (key : String) :
    LastWins.lastWrite (settings.map entry) key = (last settings key).map entry := by
  rw [LastWins.lastWrite, last, ← List.map_reverse, List.find?_map]
  rfl

theorem effective_eq (server sent : List Setting) (key : String) :
    effective server sent key = (last (server ++ sent) key).map Setting.value := by
  rw [effective, ← LastWins.apply_append, ← List.map_append, LastWins.apply_eq, lastWrite_entries]
  cases last (server ++ sent) key <;> rfl

/-- The test looks at a setting's key and value only. -/
theorem isIgnored_entry (ignore : List Setting) (s : Setting) :
    isIgnored ignore s = (get ignore (entry s).1).any fun known => known.value.eq (entry s).2 := rfl

theorem effective_sent_ignoring (server compression settings : List Setting) (key : String) :
    effective server (sent compression settings (some server)) key =
      LastWins.apply (effective server compression)
        ((settings.map entry).filter fun w =>
          !(get server w.1).any fun known => known.value.eq w.2) key := by
  rw [effective, sent, List.map_append, LastWins.apply_append, List.filter_map]
  rfl

theorem effective_sent (server compression settings : List Setting) (key : String) :
    effective server (sent compression settings none) key =
      LastWins.apply (effective server compression) (settings.map entry) key := by
  rw [effective, sent, List.map_append, LastWins.apply_append]
  rfl

/-- **When what is left out is not missed.**  Where the last setting that a query has for a key
is left out, so are its others for the key, and the last setting that the server and then the
compression have for it has the same value. -/
theorem ignoresUnnoticed_iff (server compression settings : List Setting) :
    IgnoresUnnoticed server compression settings ↔
      ∀ key s, last settings key = some s → isIgnored server s = true →
        (∀ s' ∈ settings, s'.key = key → isIgnored server s' = true) ∧
          (last (server ++ compression) key).map Setting.value = some s.value := by
  refine forall_congr' fun key => ?_
  rw [effective_sent_ignoring, effective_sent, LastWins.apply_filter_eq_iff, lastWrite_entries,
    effective_eq]
  constructor
  · intro h s hlast hignored
    obtain ⟨hall, hvalue⟩ := h (entry s) (congrArg (Option.map entry) hlast)
      (by rw [← isIgnored_entry, hignored, Bool.not_true])
    refine ⟨fun s' hs' hkey => ?_, hvalue⟩
    have hdropped := hall (entry s') (List.mem_map_of_mem hs') hkey
    rw [← isIgnored_entry, Bool.not_eq_false'] at hdropped
    exact hdropped
  · intro h w hlast hdropped
    obtain ⟨s, hs, rfl⟩ := Option.map_eq_some_iff.mp hlast
    rw [← isIgnored_entry, Bool.not_eq_false'] at hdropped
    obtain ⟨hall, hvalue⟩ := h s hs hdropped
    refine ⟨fun w' hw' hkey => ?_, hvalue⟩
    obtain ⟨s', hs', rfl⟩ := List.mem_map.mp hw'
    rw [← isIgnored_entry, hall s' hs' hkey, Bool.not_true]

/-- A key that is set twice, and one that the compression has set before. -/
theorem not_ignoresUnnoticed_samples :
    ¬ IgnoresUnnoticed [⟨"max_threads", .int 8, false, false⟩] []
        [⟨"max_threads", .int 4, false, false⟩, ⟨"max_threads", .int 8, false, false⟩] ∧
      ¬ IgnoresUnnoticed [⟨"network_compression_method", .string "LZ4", false, false⟩]
        [⟨"network_compression_method", .string "zstd", false, false⟩]
        [⟨"network_compression_method", .string "LZ4", false, false⟩] := by
  constructor
  · intro h
    exact absurd (h "max_threads") (by decide)
  · intro h
    exact absurd (h "network_compression_method") (by decide)

end Settings

end ClickhouseArrow
