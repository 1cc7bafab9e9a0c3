import CellFormula.Dialect
import CellFormula.Text.Blank
import CellFormula.Token.Basic
/-!
# Scanning one token

`scanToken` reads one token off a text that does not start with a blank. Digits, letters and quotes
come before the classes of the dialect, and operators before delimiters. What it leaves is always
shorter than what it was given.
-/

namespace CellFormula

/-! ## Numbers -/

/-- The numeral that a text spells, if it rounds to a finite number. -/
def finiteNumeral? (cs : List Char) : Option Number.Decimal :=
  (Number.Decimal.read? cs).filter Number.Decimal.isFinite

/-- The next piece that a number can take: one character, or an exponent mark with its sign and
first digit if there is no exponent yet. -/
def numberPiece (hasExponent : Bool) : List Char → List Char
  | [] => []
  | c :: r =>
    if c = 'e' ∨ c = 'E' then
      match hasExponent, r with
      | false, d :: r' =>
        if d.isDigit then [c, d]
        else
          match r' with
          | d' :: _ => if (d = '+' ∨ d = '-') ∧ d'.isDigit then [c, d, d'] else []
          | [] => []
      | _, _ => []
    else [c]

theorem length_numberPiece_le (hasExponent : Bool) (cs : List Char) :
    (numberPiece hasExponent cs).length ≤ cs.length := by
  fun_cases numberPiece hasExponent cs <;> simp

/-- A number grows piece by piece for as long as it spells a finite number. The answer is the whole
spelling and the text behind it. -/
def growNumber (lexeme : List Char) (hasExponent : Bool) (cs : List Char) : List Char × List Char :=
  let piece := numberPiece hasExponent cs
  if _h : piece = [] then (lexeme, cs)
  else
    match finiteNumeral? (lexeme ++ piece) with
    | none => (lexeme, cs)
    | some _ => growNumber (lexeme ++ piece) (hasExponent || piece.length ≠ 1) (cs.drop piece.length)
termination_by cs.length
decreasing_by
  have := length_numberPiece_le hasExponent cs
  have : 0 < (numberPiece hasExponent cs).length := List.length_pos_iff.2 _h
  simp only [List.length_drop]
  omega

theorem length_growNumber_le (lexeme : List Char) (hasExponent : Bool) (cs : List Char) :
    (growNumber lexeme hasExponent cs).2.length ≤ cs.length := by
  fun_induction growNumber lexeme hasExponent cs with
  | case1 => simp
  | case2 => simp
  | case3 lexeme hasExponent cs piece h grown hg ih =>
    exact Nat.le_trans ih (by simp)

/-! ## Words -/

/-- What may go on with a word: ASCII letters, digits and the underscore. -/
def isWordChar (c : Char) : Bool := c.isAlphanum || c == '_'

/-- A word is a function name of the dialect or else a reference. -/
def wordKind (d : Dialect) (word : List Char) : TokenKind :=
  if d.isFunctionName (String.ofList word) then .function (String.ofList word)
  else .reference (String.ofList word)

/-! ## One token -/

/-- Why no token can be read. -/
inductive ScanFault where
  /-- The character starts no token. -/
  | noToken
  /-- The characters taken for a number, up to `rest`, spell none. -/
  | noNumber (rest : List Char)
  /-- Nothing closes the quoted text. -/
  | unclosedText
  deriving DecidableEq

/-- The token that starts with `c`, and the text behind it. What has been taken for a number is read
once more as a whole. -/
def scanToken (d : Dialect) (c : Char) (cs : List Char) : Except ScanFault (TokenKind × List Char) :=
  if c.isDigit then
    let (lexeme, rest) := growNumber [c] false cs
    match Number.Decimal.read? lexeme with
    | some numeral => .ok (.number (numeral.toFloat false), rest)
    | none => .error (.noNumber rest)
  else if c.isAlpha then
    .ok (wordKind d (c :: cs.takeWhile isWordChar), cs.dropWhile isWordChar)
  else if c = '"' then
    match Text.Quoted.read? cs with
    | some (content, rest) => .ok (.text (String.ofList content), rest)
    | none => .error .unclosedText
  else if d.isOperator c then .ok (.operator c, cs)
  else if d.isDelimiter c then .ok (.delimiter c, cs)
  else .error .noToken

theorem length_scanToken_le {d : Dialect} {c : Char} {cs : List Char} {kind : TokenKind}
    {rest : List Char} (h : scanToken d c cs = .ok (kind, rest)) : rest.length ≤ cs.length := by
  unfold scanToken at h
  split at h
  · dsimp only at h
    split at h
    · simp only [Except.ok.injEq, Prod.mk.injEq] at h
      rw [← h.2]
      exact length_growNumber_le ..
    · simp at h
  split at h
  · simp only [Except.ok.injEq, Prod.mk.injEq] at h
    rw [← h.2]
    exact (List.dropWhile_sublist _).length_le
  split at h
  · split at h
    · rename_i content r hr
      simp only [Except.ok.injEq, Prod.mk.injEq] at h
      rw [← h.2]
      exact Nat.le_of_lt (Text.Quoted.length_rest_lt hr)
    · simp at h
  split at h
  · simp only [Except.ok.injEq, Prod.mk.injEq] at h
    simp [← h.2]
  split at h
  · simp only [Except.ok.injEq, Prod.mk.injEq] at h
    simp [← h.2]
  · simp at h

end CellFormula
