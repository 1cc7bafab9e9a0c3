import CellFormula.Token.Scanner
/-!
# Streams of tokens

A cursor is a position in a text. `Cursor.next` steps over blanks and one token; a character that
starts no token stops it for good, and an unclosed quoted text takes it to the end. `scanAll` is all
the tokens in front of the end or of the first error. A `TokenStream` can also be stepped through
`advance`, which answers nothing more after it has met the end or an error.
-/

namespace CellFormula

/-- What is left of a text, and how many characters lie before it. -/
structure Cursor where
  position : Nat
  rest : List Char
  deriving DecidableEq

namespace Cursor

/-- The cursor in front of the whole text. -/
def start (text : String) : Cursor := ⟨0, text.toList⟩

/-- The cursor in front of `rest`, a later part of the text. -/
def moveTo (s : Cursor) (rest : List Char) : Cursor :=
  ⟨s.position + (s.rest.length - rest.length), rest⟩

/-- The cursor behind the blanks that come next. -/
def skipBlanks (s : Cursor) : Cursor :=
  s.moveTo (s.rest.dropWhile Text.isBlank)

/-- The next token or error, and the cursor behind it. -/
def next (d : Dialect) (s : Cursor) : Except LexicalError Token × Cursor :=
  let s := s.skipBlanks
  match s.rest with
  | [] => (.ok ⟨.endOfInput, s.position⟩, s)
  | c :: cs =>
    match scanToken d c cs with
    | .ok (kind, rest) => (.ok ⟨kind, s.position⟩, s.moveTo rest)
    | .error .noToken => (.error (.invalidToken s.position), s)
    | .error (.noNumber rest) => (.error (.invalidToken s.position), s.moveTo rest)
    | .error .unclosedText => (.error (.unterminatedText s.position), s.moveTo [])

theorem length_skipBlanks_le (s : Cursor) : s.skipBlanks.rest.length ≤ s.rest.length :=
  (List.dropWhile_sublist _).length_le

theorem length_next_lt {d : Dialect} {s s' : Cursor} {t : Token} (h : s.next d = (.ok t, s'))
    (ht : t.kind ≠ .endOfInput) : s'.rest.length < s.rest.length := by
  have hle := s.length_skipBlanks_le
  unfold next at h
  revert h
  generalize s.skipBlanks = u at hle
  intro h
  dsimp only at h
  split at h
  · simp only [Prod.mk.injEq, Except.ok.injEq] at h
    simp [← h.1] at ht
  · rename_i c cs hc
    have hu : u.rest.length = cs.length + 1 := by simp [hc]
    split at h <;> rename_i hk
    · have hlen := length_scanToken_le hk
      simp only [Prod.mk.injEq] at h
      rw [← h.2]
      simp only [moveTo]
      omega
    · simp at h
    · simp at h
    · simp at h

end Cursor

/-- The tokens of a text, without the end, and how the text ends: at a position, or in an error. -/
structure TokenRun where
  tokens : List Token
  ending : Except LexicalError Nat

/-- All tokens from the cursor on. -/
def scanAll (d : Dialect) (s : Cursor) : TokenRun :=
  match _h : s.next d with
  | (.error e, _) => ⟨[], .error e⟩
  | (.ok t, s') =>
    if _ht : t.kind = .endOfInput then ⟨[], .ok t.position⟩
    else
      let run := scanAll d s'
      ⟨t :: run.tokens, run.ending⟩
termination_by s.rest.length
decreasing_by exact Cursor.length_next_lt _h _ht

/-- The tokens of a whole text, the end among them. -/
def tokenize (d : Dialect) (text : String) : Except LexicalError (List Token) :=
  let run := scanAll d (.start text)
  run.ending.map fun p => run.tokens ++ [⟨.endOfInput, p⟩]

/-- A cursor and whether `advance` has met the end or an error. -/
structure TokenStream where
  cursor : Cursor
  finished : Bool

namespace TokenStream

/-- A stream that nothing has been asked of yet. -/
def ofText (text : String) : TokenStream := ⟨.start text, false⟩

/-- The next token or error; at the end of the text the end again. -/
def next (d : Dialect) (s : TokenStream) : Except LexicalError Token × TokenStream :=
  let (result, cursor) := s.cursor.next d
  (result, { s with cursor })

/-- Like `next`, but nothing after `advance` has answered with the end or an error. -/
def advance (d : Dialect) (s : TokenStream) : Option (Except LexicalError Token) × TokenStream :=
  if s.finished then (none, s)
  else
    let (result, cursor) := s.cursor.next d
    let finished := match result with
      | .ok t => t.isEnd
      | .error _ => true
    (some result, ⟨cursor, finished⟩)

end TokenStream

end CellFormula
