import Spreadsheet.Text.Case
import Spreadsheet.Area.Offset
import Spreadsheet.Reference.R1C1
import Spreadsheet.Operator
import Spreadsheet.Workbook
import Spreadsheet.Calculation
import Spreadsheet.Proofs.Footprint
import Spreadsheet.Proofs.Keys
import Spreadsheet.Proofs.Failures
import Spreadsheet.Proofs.Entry
import Spreadsheet.Proofs.Tokens
import Spreadsheet.Proofs.ReferenceText
import Spreadsheet.Proofs.Grammar
import Spreadsheet.Proofs.CallChain
import Spreadsheet.Proofs.Indirect
import Spreadsheet.Proofs.SheetCase
import Spreadsheet.Proofs.Words
import Spreadsheet.Proofs.PlacedOperands
import Spreadsheet.Proofs.Rectangles
import Spreadsheet.Proofs.Concurrent
import Spreadsheet.Proofs.Alone
import Spreadsheet.Proofs.Indexing
import Spreadsheet.Proofs.Offset
import Spreadsheet.Proofs.CellSets
import Spreadsheet.Proofs.Counted
import Spreadsheet.Proofs.Dependents
import Spreadsheet.Proofs.Refusals
import Spreadsheet.Proofs.Store
import Spreadsheet.Proofs.StoredText
import Spreadsheet.Proofs.Calculation
import Spreadsheet.Proofs.Limits
import Spreadsheet.Proofs.Finite
import Spreadsheet.Proofs.Elementwise
import Spreadsheet.Proofs.TableText
