/-!
# Columns

Columns are labelled in bijective base 26: `A` to `Z`, then `AA`. `Column.next` is the label after a
label, `Column.order` puts shorter labels first, and `Column.number` is the place of a label in that
order. They work on the UTF-8 bytes of a label, so they answer for any text.
-/

namespace CellFormula.Column

/-- The UTF-8 bytes of a text. -/
def bytes (text : String) : List UInt8 :=
  text.toList.flatMap String.utf8EncodeChar

/-- Adds one to a label whose last byte comes first: bytes from `Z` on start over at `A` and carry,
and a carry out of the label lengthens it. -/
def increment : List UInt8 → List UInt8
  | [] => [65]
  | b :: bs => if b < 90 then (b + 1) :: bs else 65 :: increment bs

/-- The label after this one; each byte of it becomes a character. -/
def next (column : String) : String :=
  String.ofList ((increment (bytes column).reverse).reverse.map fun b => Char.ofNat b.toNat)

/-- Shorter labels first, labels of one length in alphabetical order. -/
def order (a b : String) : Ordering :=
  (compare (bytes a).length (bytes b).length).then (compare a b)

/-- The value of a label as a numeral in bijective base 26, with `A` as 1. -/
def number (column : String) : Nat :=
  column.toList.foldl (fun n c => 26 * n + (c.toNat - 64)) 0

/-- A label and those after it, as many as asked for. -/
def listFrom (column : String) : Nat → List String
  | 0 => []
  | n + 1 => column :: listFrom (next column) n

end CellFormula.Column
