import CellFormula.Main
import CellFormula.Proofs.Cell.Range
import CellFormula.Proofs.CommandLine.PlainCells
import CellFormula.Proofs.Evaluation.Corners
import CellFormula.Proofs.Evaluation.Dependence
import CellFormula.Proofs.Evaluation.Inlining
import CellFormula.Proofs.Evaluation.Lookups
import CellFormula.Proofs.Evaluation.Origins
import CellFormula.Proofs.Evaluation.RangeArguments
import CellFormula.Proofs.Expr.Composition
import CellFormula.Proofs.Expr.Dialects
import CellFormula.Proofs.Expr.Positions
import CellFormula.Proofs.Expr.References
import CellFormula.Proofs.Expr.RoundTrip
import CellFormula.Proofs.Expr.Spacing
import CellFormula.Proofs.Token.Calls
import CellFormula.Proofs.Token.NumberTexts
import CellFormula.Proofs.Token.Segmentation
import CellFormula.Proofs.Value.Extreme
import CellFormula.Proofs.Value.RoundTrip
