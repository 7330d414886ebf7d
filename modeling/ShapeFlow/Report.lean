/-
The report on a propagation: a table of the values with what is known about
each, and a line that counts them.
-/
import ShapeFlow.Report.Quantity
import ShapeFlow.Report.Table
import ShapeFlow.Resolver.Query

namespace ShapeFlow

structure ReportRow where
  name : Text
  info : TensorInfo?
  /-- Elements and bytes, if they are known. -/
  size : Option (Int64 × UInt64)
  provenance : Provenance

structure Report where
  rows : List ReportRow
  /-- How many nodes failed. -/
  failures : Nat

namespace ReportRow

def cells (row : ReportRow) : List Text :=
  let element : Text := match row.info.element? with | some t => t.name | none => "?"
  let shape : Text := match row.info.shape? with | some s => Shape?.text (some s) | none => "?"
  let (elements, bytes) : Text × Text :=
    match row.size with
    | some (elements, bytes) => (Quantity.count elements.toInt, Quantity.bytes bytes)
    | none => (.empty, .empty)
  [row.name, element, shape, elements, bytes, row.provenance.name]

def hasShape (row : ReportRow) : Bool := row.info.shape?.isSome

end ReportRow

namespace Report

/-- The row of a value, unless the elements of a tensor have no size in bytes. -/
def row (r : Resolver) (name : Text) : Except ElementType ReportRow :=
  let info := r.info? name
  let rest (size : Option (Int64 × UInt64)) : ReportRow := ⟨name, info, size, r.provenance name⟩
  match info.footprint with
  | .unknown => .ok (rest none)
  | .of elements bytes => .ok (rest (some (elements, bytes)))
  | .unsized element => .error element

/-- The report on a resolver's values, constants left out unless all are wanted. -/
def ofResolver (r : Resolver) (all : Bool) : Except ElementType Report := do
  let constants := r.model.graph.constants.map Declaration.name
  let names := r.valueNames.filter fun name => all || !constants.contains name
  return ⟨← names.mapM (row r), r.failureTable.size⟩

def columns : List Column :=
  [⟨"Value", .left⟩, ⟨"DType", .left⟩, ⟨"Shape", .left⟩, ⟨"Elements", .right⟩, ⟨"Bytes", .right⟩,
    ⟨"Provenance", .left⟩]

def text (report : Report) : Text :=
  let table : Table := ⟨columns, report.rows.map ReportRow.cells⟩
  let resolved := report.rows.countP ReportRow.hasShape
  table.text ++ Quantity.count resolved ++ " of " ++ Quantity.count report.rows.length ++
    " values with known shape, " ++ Quantity.count report.failures ++ " failed node(s)\n"

end Report

end ShapeFlow
