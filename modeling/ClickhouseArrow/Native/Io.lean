import ClickhouseArrow.Native.Types

/-!
# Reading and writing primitives

The byte primitives of `io.rs`, for both families of entry points: those that await
bytes from a socket and those that take them from a buffer.  The two differ in the
error that ends a read at the end of the input.
-/

namespace ClickhouseArrow

open Wire

/-- `MAX_STRING_SIZE`, `1 << 30`. -/
def maxStringSize : Nat := 1073741824

/-- `isize::MAX`, the largest allocation. -/
def isizeMax : Nat := 9223372036854775807

/-- Which of the two families of entry points runs: `ClickHouseRead` (`async`) or
`ClickHouseBytesRead` (`sync`). -/
inductive Mode
  | async
  | sync
  deriving DecidableEq, Repr

namespace Mode

/-- The end of the input in a read of a fixed number of bytes. -/
def eof : Mode → Nat → Nat → Error
  | .async, _, _ => .unexpectedEof
  | .sync, requested, available => .bytesRead requested available

/-- The end of the input inside a variable-length number. -/
def eofVarUint : Mode → Nat → Nat → Error
  | .async, _, _ => .unexpectedEof
  | .sync, _, _ => .protocol [.text "Unexpected EOF reading varint"]

/-- The end of the input inside the bytes of a string. -/
def eofString : Mode → Nat → Nat → Error
  | .async, _, _ => .unexpectedEof
  | .sync, _, _ => .protocol [.text "Not enough data for string"]

def stringTooLarge (len : Nat) : Mode → Error
  | .async => .protocol [.text "string too large: ", .number len, .text " > ", .number maxStringSize]
  | .sync => .protocol [.text "string too large: ", .number len]

end Mode

/-- `write_var_uint` and `put_var_uint`: nine bytes at most. -/
def writeVarUint (value : Nat) : Bytes := leb128 9 value

/-- `write_string` and `put_string`. -/
def writeString (value : Bytes) : Bytes := writeVarUint value.length ++ value

/-- `read_var_uint` and `try_get_var_uint`: nine bytes at most. -/
def readVarUint (m : Mode) : Reader Error Nat := getLeb128 m.eofVarUint 9

/-- `read_string` and `try_get_string`. -/
def readString (m : Mode) : Reader Error Bytes := do
  let len ← readVarUint m
  if maxStringSize < len then Reader.fail (m.stringTooLarge len)
  else if len = 0 then pure []
  else Reader.takeExact m.eofString len

/-- `write_u64_le` of a `usize`. -/
def putUsize (n : Nat) : Bytes := putLe (UInt64.ofNat n)

/-- `read_u64_le` as a `usize`. -/
def getUsize (m : Mode) : Reader Error Nat := do
  let n ← getLe UInt64 m.eof
  pure n.toNat

theorem readVarUint_reads (m : Mode) {value : Nat} (h : value < 2 ^ 63) :
    Reads (readVarUint m) (writeVarUint value) value :=
  Reads.getLeb128 _ (by simpa using h)

theorem readString_reads (m : Mode) (value : Bytes) (h : value.length ≤ maxStringSize) :
    Reads (readString m) (writeString value) value := by
  have hlen : value.length < 2 ^ 63 := Nat.lt_of_le_of_lt h (by decide)
  refine (readVarUint_reads m hlen).bind ?_
  rw [if_neg (Nat.not_lt.mpr h)]
  by_cases hnil : value.length = 0
  · rw [if_pos hnil, List.length_eq_zero_iff.mp hnil]
    exact Reads.pure []
  · rw [if_neg hnil]
    exact Reads.takeExact _ value

/-- A string that is too long is not read back. -/
theorem readString_stuck (m : Mode) {value : Bytes} (hlong : maxStringSize < value.length)
    (hlength : value.length < 2 ^ 63) : Stuck (readString m) (writeString value) := by
  apply (readVarUint_reads m hlength).bind_stuck
  rw [if_pos hlong]
  exact Stuck.fail _ _

theorem getUsize_reads (m : Mode) {n : Nat} (h : n < 2 ^ 64) :
    Reads (getUsize m) (putUsize n) n := by
  refine (Reads.getLe m.eof (UInt64.ofNat n)).bind_nil ?_
  have hvalue : (UInt64.ofNat n).toNat = n := by
    rw [UInt64.toNat_ofNat']
    exact Nat.mod_eq_of_lt h
  rw [hvalue]
  exact Reads.pure n

theorem getUsize_consumes (m : Mode) : Consumes 8 (fun _ => True) (getUsize m) :=
  (Consumes.getLe UInt64 m.eof).bind_any fun _ _ => Consumes.pure trivial

/-- The two families read the same strings. -/
theorem readVarUint_simulates :
    Simulates (fun a b => a = b) (readVarUint .async) (readVarUint .sync) :=
  Simulates.getLeb128 _ _ 9

theorem readString_simulates :
    Simulates (fun a b => a = b) (readString .async) (readString .sync) := by
  refine readVarUint_simulates.bind ?_
  rintro len _ rfl
  refine Simulates.ite (fun _ => Simulates.fail _ _ _) fun _ => ?_
  exact Simulates.ite (fun _ => Simulates.pure rfl) fun _ => Simulates.takeExact _ _ _

end ClickhouseArrow
