import CellFormula.Pattern.Basic
import CellFormula.Pattern.Class
/-!
# Reading patterns

Patterns are written with `^`, `$`, `.`, `|`, groups, the repetitions `*`, `+` and `?`, character
classes, escapes, and characters that stand for themselves. `symbols?` cuts the text into symbols,
and `assemble?` nests them. Counted repetition, flags and look-around are refused.
-/

namespace CellFormula.Pattern

/-! ## Symbols -/

/-- How often a part may match: any number of times, at least once, or at most once. -/
inductive Repetition where
  | star
  | plus
  | optional
  deriving DecidableEq

/-- The pattern that matches as often. -/
def Repetition.apply : Repetition → Pattern → Pattern
  | star, p => .star p
  | plus, p => .seq p (.star p)
  | optional, p => .alt .empty p

/-- The pieces that a pattern text is cut into. -/
inductive Symbol where
  | set (s : Nested CharSet)
  | start
  | finish
  | bar
  | opening
  | closing
  | repetition (r : Repetition)

/-- A character that stands for itself. -/
def Symbol.single (c : Char) : Symbol := .set (.flat (.single c))

/-- The symbol of a character that neither escapes nor opens a class or a group. -/
def plainSymbol? (c : Char) : Option Symbol :=
  match c with
  | '^' => some .start
  | '$' => some .finish
  | '.' => some (.set (.flat .any))
  | '|' => some .bar
  | ')' => some .closing
  | '*' => some (.repetition .star)
  | '+' => some (.repetition .plus)
  | '?' => some (.repetition .optional)
  | '\x7b' => none
  | c => some (.single c)

/-- Skips the mark of a group that is not numbered. -/
def skipGroupMark : (cs : List Char) → NotLonger cs
  | '?' :: ':' :: r => ⟨r, by simp only [List.length_cons]; omega⟩
  | cs => .all cs

/-- Skips the mark of a repetition that prefers fewer rounds; it matches in the same places. -/
def skipLazyMark : (cs : List Char) → NotLonger cs
  | '?' :: r => ⟨r, by simp only [List.length_cons]; omega⟩
  | cs => .all cs

/-- Skips what belongs to a symbol behind its first character. -/
def Symbol.skipMark : Symbol → (cs : List Char) → NotLonger cs
  | repetition _, cs => skipLazyMark cs
  | _, cs => .all cs

/-- Cuts a pattern text into symbols. -/
def symbols? (cs : List Char) : Option (List Symbol) :=
  match cs with
  | [] => some []
  | c :: r =>
    if c = '\\' then
      match r with
      | [] => none
      | e :: r' => do return .single (← escaped? e) :: (← symbols? r')
    else if c = '[' then do
      let (s, rest) ← class? r
      return .set s :: (← symbols? rest.1)
    else if c = '(' then do
      let rest := skipGroupMark r
      return .opening :: (← symbols? rest.1)
    else do
      let s ← plainSymbol? c
      let rest := s.skipMark r
      return s :: (← symbols? rest.1)
termination_by cs.length
decreasing_by
  · simp only [List.length_cons]; omega
  · exact Nat.lt_succ_of_lt rest.2
  · exact Nat.lt_succ_of_le rest.2
  · exact Nat.lt_succ_of_le rest.2

/-! ## Nesting -/

/-- A group that is still open: its finished branches and the parts of the current one, the last
one first. -/
structure Group where
  branches : List (Nested Pattern)
  parts : List (Nested Pattern)

namespace Group

/-- A group that has just been opened. -/
def empty : Group := ⟨[], []⟩

/-- Adds a part to the current branch. -/
def push (g : Group) (p : Nested Pattern) : Group := { g with parts := p :: g.parts }

/-- The current branch. -/
def branch (g : Group) : Nested Pattern := .join .seq .empty g.parts

/-- What stands in the group. -/
def close (g : Group) : Nested Pattern := .join .alt .empty (g.branch :: g.branches)

/-- Repeats the last part; there is none at the start of a branch. -/
def repeatLast? (g : Group) (r : Repetition) : Option Group :=
  match g.parts with
  | [] => none
  | p :: ps => some { g with parts := p.wrap r.apply :: ps }

end Group

/-- Nests symbols into a pattern, given the open groups from the inside out. -/
def assemble? : List Symbol → Group → List Group → Option (Nested Pattern)
  | [], g, [] => some g.close
  | [], _, _ :: _ => none
  | s :: r, g, outer =>
    match s with
    | .set cs => assemble? r (g.push ⟨.char cs.content, cs.depth⟩) outer
    | .start => assemble? r (g.push (.flat .start)) outer
    | .finish => assemble? r (g.push (.flat .finish)) outer
    | .bar => assemble? r ⟨g.branch :: g.branches, []⟩ outer
    | .opening => assemble? r .empty (g :: outer)
    | .closing =>
      match outer with
      | [] => none
      | o :: os => assemble? r (o.push (g.close.wrap id)) os
    | .repetition k => do assemble? r (← g.repeatLast? k) outer

/-- Reads a pattern; `none` if the text is no pattern or nests too deep. -/
def read? (text : String) : Option Pattern := do
  let p ← assemble? (← symbols? text.toList) .empty []
  if p.depth ≤ depthLimit then return p.content else none

end CellFormula.Pattern
