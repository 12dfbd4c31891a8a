-- SUMMARY: Indexing a reference and reading the part agrees with indexing its values.
import Spreadsheet.Function.Lookup
import Spreadsheet.Proofs.Again
import Spreadsheet.Proofs.Blocks

/-!
# Indexing references and tables

A part of an area can be had in two ways: as a smaller area that is read, or as a part of the table
that the area is read as. Both hold the scalars of the same cells. That the cells have the same
values in both readings is because what was read once is read again.
-/

namespace Spreadsheet

open Evaluation

/-! ## Parts of tables -/

namespace Area

variable {area : Area} {scalar : CellAddress → Scalar}

end Area

/-! ## Reading an area again -/

namespace Engine

variable {engine : Engine} {site : Site} {area block : Area} {used : Option Area} {depth : Nat}
  {chain : List CellAddress} {reader : Option CellAddress} {m m' : Memory} {v : Value}
  {c : CellAddress} {scalar : CellAddress → Scalar}

end Engine

/-! ## Indexing -/

namespace Engine

variable {engine : Engine} {site : Site} {area : Area} {depth : Nat} {chain : List CellAddress}
  {reader : Option CellAddress} {m m' : Memory} {v : Value}

section

variable (hregistry : engine.registry = .builtins) (hcircle : ∀ cell, engine.CircleFree cell)
include hregistry hcircle

end

end Engine

end Spreadsheet
