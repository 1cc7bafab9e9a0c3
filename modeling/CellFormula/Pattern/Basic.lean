import CellFormula.Pattern.CharSet
/-!
# Patterns for single characters

A pattern is a regular expression that is searched for in a text of one character. Such a text has
two places, in front of the character and behind it, so what a pattern matches is told by three
flags: the empty text at either place, and the whole character.
-/

namespace CellFormula

/-- A regular expression: the two ends of the text, sets of characters, and what is built from them. -/
inductive Pattern where
  | empty
  | start
  | finish
  | char (set : CharSet)
  | seq (first second : Pattern)
  | alt (left right : Pattern)
  | star (body : Pattern)

namespace Pattern

/-- Where a pattern matches in a text of one character. -/
structure Reach where
  /-- The empty text in front of the character. -/
  front : Bool
  /-- The whole character. -/
  across : Bool
  /-- The empty text behind the character. -/
  behind : Bool
  deriving DecidableEq

/-- Where the pattern matches in the text of this one character. -/
def reach (c : Char) : Pattern → Reach
  | empty => ⟨true, false, true⟩
  | start => ⟨true, false, false⟩
  | finish => ⟨false, false, true⟩
  | char set => ⟨false, set.contains c, false⟩
  | seq p q =>
    let a := reach c p
    let b := reach c q
    ⟨a.front && b.front, (a.front && b.across) || (a.across && b.behind), a.behind && b.behind⟩
  | alt p q =>
    let a := reach c p
    let b := reach c q
    ⟨a.front || b.front, a.across || b.across, a.behind || b.behind⟩
  | star p => ⟨true, (reach c p).across, true⟩

/-- Whether the pattern is found anywhere in the text of this one character. -/
def occursIn (p : Pattern) (c : Char) : Bool :=
  (p.reach c).front || (p.reach c).across || (p.reach c).behind

end Pattern

end CellFormula
