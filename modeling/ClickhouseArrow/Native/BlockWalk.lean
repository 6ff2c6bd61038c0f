import ClickhouseArrow.Native.ModeAgreement
import ClickhouseArrow.Native.SyncReader

/-!
# Walking over a block

`Block.scan` goes over the bytes of a block as the reader of the mode does.  It reads the
counts, the names and the type names, since they say which columns follow, and walks over
the values of a column with counts only, as `scanPrefixedColumn` and
`scanPrefixedColumnSync` do.  How the walk ends says how the reader ends, so the readers of
the two modes make the same of a block exactly where their walks end alike.
-/

namespace ClickhouseArrow

open Wire

namespace BlockInfo

theorem readFields_simulates (fuel : Nat) (new : BlockInfo) :
    Simulates (fun a b => a = b) (readFields .async fuel new) (readFields .sync fuel new) := by
  induction fuel generalizing new with
  | zero => exact Simulates.panic _ _ _
  | succ fuel ih =>
      refine readVarUint_simulates.bind ?_
      rintro fieldNum _ rfl
      match fieldNum with
      | 0 => exact Simulates.pure rfl
      | 1 =>
          refine (Simulates.getLe UInt8 _ _).bind ?_
          rintro b _ rfl
          exact ih _
      | 2 =>
          refine (Simulates.getLe Int32 _ _).bind ?_
          rintro n _ rfl
          exact ih _
      | n + 3 => exact Simulates.fail _ _ _

theorem read_simulates : Simulates (fun a b => a = b) (read .async) (read .sync) :=
  fun bs => readFields_simulates (bs.length + 1) initial bs

end BlockInfo

/-- Read what decides the course of a walk; a refusal carries no message. -/
def Scan.reading {α : Type} (p : Reader Error α) : Scan α := p.mapError fun _ => ()

/-- The readers of both modes follow one walk. -/
theorem Scan.reading_follows {α : Type} {p : Mode → Reader Error α}
    (h : Simulates (fun a b => a = b) (p .async) (p .sync)) (m : Mode) :
    Simulates (fun a b => a = b) (p m) (reading (p .async)) := by
  cases m with
  | async => exact (Simulates.refl _).mapError_right _
  | sync => exact (h.symm.mono fun _ _ hab => hab.symm).mapError_right _

namespace ChType

/-- Walk over the prefix and the column as the decoder of the mode does. -/
def scanColumnIn : Mode → ChType → Nat → Scan Nat
  | .async => scanPrefixedColumn
  | .sync => scanPrefixedColumnSync

theorem columnIn_follows (m : Mode) (t : ChType) (rows : Nat) :
    Follows anyValue (t.deserializePrefix m >>= fun _ => t.readColumn m rows)
      (scanColumnIn m t rows) := by
  cases m with
  | async => exact readPrefixedColumn_follows t rows
  | sync => exact readPrefixedColumnSync_follows t rows

end ChType

namespace Block

open Scan

/-! ## The walk -/

/-- Walk over the prefix and the values of a column. -/
def scanValues (m : Mode) (t : ChType) (rows : Nat) : Scan Unit :=
  if 0 < rows then do
    let _ ← ChType.scanColumnIn m t rows
    pure ()
  else pure ()

/-- Walk over the columns of a block. -/
def scanColumns (lex : Lexicon) (m : Mode) (revision rows : Nat) : Nat → Scan Unit
  | 0 => pure ()
  | columns + 1 => do
      let _ ← reading (readUtf8String .async)
      let typeName ← reading (readUtf8String .async)
      reading (readFlag .async revision)
      let t ← reading (Reader.ofOutcome (ChType.fromStr lex typeName.toList))
      scanValues m t rows
      scanColumns lex m revision rows columns

/-- Walk over a block as the reader of the mode does. -/
def scan (lex : Lexicon) (m : Mode) (revision : Nat) : Scan Unit := do
  let _ ← reading (readInfo .async revision)
  let columns ← reading (readVarUint .async)
  let rows ← reading (readVarUint .async)
  scanColumns lex m revision rows columns

/-! ## The readers follow their walks -/

theorem readInfo_simulates (revision : Nat) :
    Simulates (fun a b => a = b) (readInfo .async revision) (readInfo .sync revision) :=
  Simulates.ite (fun _ => BlockInfo.read_simulates) fun _ => Simulates.pure rfl

theorem readType_follows (lex : Lexicon) (typeName : String) :
    Simulates (fun a b => a = b) (Reader.ofOutcome (ChType.fromStr lex typeName.toList))
      (reading (Reader.ofOutcome (ChType.fromStr lex typeName.toList))) :=
  (Simulates.refl _).mapError_right _

theorem readValues_follows (m : Mode) (t : ChType) (rows : Nat) :
    Simulates (fun _ _ => True) (readValues m t rows) (scanValues m t rows) := by
  refine Simulates.ite (fun _ => ?_) fun _ => Simulates.pure trivial
  have hcolumn := ChType.columnIn_follows m t rows
  rw [← bind_pure (t.deserializePrefix m >>= fun _ => t.readColumn m rows)]
  exact hcolumn.bind fun _ _ _ => Simulates.pure trivial

theorem readColumns_follows (lex : Lexicon) (m : Mode) (revision rows columns : Nat) :
    Simulates (fun _ _ => True) (readColumns lex m revision rows columns)
      (scanColumns lex m revision rows columns) := by
  induction columns with
  | zero => exact Simulates.pure trivial
  | succ columns ih =>
      have hname := reading_follows readUtf8String_simulates m
      have hflag := reading_follows (p := (readFlag · revision)) (readFlag_simulates revision) m
      refine hname.bind fun name _ _ => hname.bind ?_
      rintro typeName _ rfl
      refine hflag.bind fun _ _ _ => ?_
      refine (readType_follows lex typeName).bind ?_
      rintro t _ rfl
      refine (readValues_follows m t rows).bind fun rowData _ _ => ?_
      rw [← bind_pure (scanColumns lex m revision rows columns)]
      exact ih.bind fun _ _ _ => Simulates.pure trivial

/-- **The reader of a block follows its walk.** -/
theorem read_follows (lex : Lexicon) (m : Mode) (revision : Nat) :
    Simulates (fun _ _ => True) (read lex m revision) (scan lex m revision) := by
  have hinfo := reading_follows (p := (readInfo · revision)) (readInfo_simulates revision) m
  have hnumber := reading_follows readVarUint_simulates m
  refine hinfo.bind fun info _ _ => hnumber.bind ?_
  rintro columns _ rfl
  refine hnumber.bind ?_
  rintro rows _ rfl
  rw [← bind_pure (scanColumns lex m revision rows columns)]
  exact (readColumns_follows lex m revision rows columns).bind fun _ _ _ => Simulates.pure trivial

/-- The synchronous reader takes the block back. -/
def SyncReads (lex : Lexicon) (b : Block) : Prop :=
  b.rows.toNat = 0 ∨ Fits lex b ∧ Readable .sync b.rows.toNat b.columnTypes b.columnData

/-! ## What the synchronous reader returns -/

theorem readValues_extends (t : ChType) (rows : Nat) :
    Extends (readValues .sync t rows) (readValues .async t rows) :=
  have hstart := (ChType.deserializePrefix_simulates t).extends
  Extends.ite (fun _ => hstart.bind fun _ => t.readColumn_extends rows) fun _ => Extends.pure _

theorem readColumns_extends (lex : Lexicon) (revision rows columns : Nat) :
    Extends (readColumns lex .sync revision rows columns)
      (readColumns lex .async revision rows columns) := by
  induction columns with
  | zero => exact Extends.pure _
  | succ columns ih =>
      have hname := readUtf8String_simulates.extends
      refine hname.bind fun name => hname.bind fun typeName => ?_
      refine (readFlag_simulates revision).extends.bind fun _ => ?_
      refine (Extends.ofOutcome _).bind fun t => (readValues_extends t rows).bind fun rowData => ?_
      exact ih.bind fun _ => Extends.pure _

/-- The synchronous reader of blocks returns only what the asynchronous one returns. -/
theorem read_extends (lex : Lexicon) (revision : Nat) :
    Extends (read lex .sync revision) (read lex .async revision) := by
  have hnumber := readVarUint_simulates.extends
  refine (readInfo_simulates revision).extends.bind fun info => hnumber.bind fun columns => ?_
  refine hnumber.bind fun rows => ?_
  exact (readColumns_extends lex revision rows columns).bind fun _ => Extends.pure _

end Block

end ClickhouseArrow
