import CellFormula.Proofs.Expr.Lockstep
import CellFormula.Proofs.Token.Spacing
/-!
# Formulas with more blanks

The parser chooses by the kinds of tokens alone and takes positions only into its errors. So tokens
with other positions give the same tree, or the same error with its position moved alike. Where a text
is read with more blanks between its tokens, that is all that changes.
-/

namespace CellFormula

/-- The error with its position moved. -/
def ParseError.move (f : Nat → Nat) : ParseError → ParseError
  | lexical x => lexical (x.move f)
  | unclosedParenthesis p => unclosedParenthesis (f p)
  | invalidExpression p found => invalidExpression (f p) found
  | invalidRange p => invalidRange (f p)
  | missingParenthesis p name => missingParenthesis (f p) name

namespace Expr

/-! ## Tokens at other positions -/

section Parser
variable {f : Nat → Nat}

theorem lifts_leading_move (f : Nat → Nat) (ending : Except LexicalError Nat) (ts : List Token) :
    Lifts (fun x y => y = x.move f) (fun t u => u = t.move f) (leading ending ts)
      (leading (moveEnding f ending) (ts.map (Token.move f))) := by
  cases ts with
  | cons t ts => exact .ok rfl
  | nil =>
    cases ending with
    | ok p => exact .ok rfl
    | error x => exact .error rfl

theorem lockstep_move (f : Nat → Nat) (ending : Except LexicalError Nat) :
    Lockstep ending (moveEnding f ending) (fun ts us => us = ts.map (Token.move f))
      (fun p q => q = f p) (fun x y => y = x.move f) where
  kinds := by
    rintro ts _ rfl
    rw [List.map_map]
    rfl
  tail := fun hts => (List.cons.inj hts).2
  opening := fun hts => congrArg Token.position (List.cons.inj hts).1
  unclosed := by
    rintro p _ rfl
    rfl
  unexpected := by
    rintro ts _ rfl
    refine (lifts_leading_move f ending ts).mono ?_
    rintro t _ rfl
    exact ⟨rfl, rfl⟩
  noRange := fun hts => congrArg ParseError.invalidRange (congrArg Token.position (List.cons.inj hts).1)
  noParenthesis := by
    rintro name p q ts us hts -
    rw [(List.cons.inj hts).2]
    refine (lifts_leading_move f ending ts).mono ?_
    rintro t _ rfl
    rfl

/-- Moving the positions of all tokens moves those of the errors. -/
theorem ofTokens_move (f : Nat → Nat) (run : TokenRun) :
    ofTokens (run.move f) = (ofTokens run).mapError (ParseError.move f) := by
  have hlifts : Lifts (fun x y => y = x.move f) (fun e e' => e' = e) (ofTokens run)
      (ofTokens (run.move f)) := (lockstep_move f run.ending).ofTokens rfl
  generalize ofTokens (run.move f) = moved at hlifts
  generalize ofTokens run = answer at hlifts
  cases hlifts with
  | ok he =>
    cases he
    rfl
  | error hx =>
    cases hx
    rfl

end Parser

end Expr

open CellFormula.Expr

/-- Blanks can be put in at the start of a text, behind a token or among blanks. The tokens, or the
error they end in, and the answers of the stream to any calls stay the same, and so does the tree, or the
error of the parser. Only the positions behind the blanks move, by as many characters. -/
theorem blanks_move_positions {d : Dialect} {u v w : String}
    (huv : Cursor.Approaches d (.start (u ++ v)) v.toList) (hw : AllBlank w.toList) :
    let f := shiftFrom u.length w.length
    scanAll d (.start (u ++ w ++ v)) = (scanAll d (.start (u ++ v))).move f ∧
    (∀ calls, (TokenStream.ofText (u ++ w ++ v)).answers d calls =
      ((TokenStream.ofText (u ++ v)).answers d calls).map (Option.map (moveAnswer f))) ∧
    parse d (u ++ w ++ v) = (parse d (u ++ v)).mapError (ParseError.move f) := by
  have hstart : Cursor.start (u ++ v) = ⟨0, u.toList ++ v.toList⟩ := by
    rw [Cursor.start, String.toList_append]
  have hstart' : Cursor.start (u ++ w ++ v) = ⟨0, u.toList ++ (w.toList ++ v.toList)⟩ := by
    rw [Cursor.start, String.toList_append, String.toList_append, List.append_assoc]
  have hspaced : Spaced d v.toList w.toList u.length (.start (u ++ v)) (.start (u ++ w ++ v)) := by
    rw [hstart] at huv
    rw [hstart, hstart']
    exact .before huv (by simp [String.length_toList])
  have hscan := hspaced.scanAll_eq hw
  rw [String.length_toList] at hscan
  refine ⟨hscan, fun calls => ?_, ?_⟩
  · have hanswers := hspaced.answers_eq hw false calls
    rwa [String.length_toList] at hanswers
  · rw [parse, hscan, ofTokens_move]
    rfl

/-- A number that ends where the next digit would make it infinite. -/
theorem blanks_behind_cut_number :
    parse .standard ("1e40" ++ "0+A_1@") = .error (.invalidExpression 4 "number 0") ∧
    parse .standard ("1e40" ++ " \t" ++ "0+A_1@") = .error (.invalidExpression 6 "number 0") ∧
    (scanAll .standard (.start ("1e40" ++ " \t" ++ "0+A_1@"))).ending = .error (.invalidToken 11) := by
  have happroaches : Cursor.Approaches .standard (.start ("1e40" ++ "0+A_1@")) "0+A_1@".toList := by
    have hnext : (Cursor.start ("1e40" ++ "0+A_1@")).next .standard =
        (.ok ⟨.number 1e40, 0⟩, ⟨4, "0+A_1@".toList⟩) := by decide +kernel
    exact .token hnext (by decide) (@Cursor.Approaches.blanks _ 4 [] _ nofun)
  have hblank : AllBlank " \t".toList := by
    rw [show " \t".toList = [' ', '\t'] from rfl]
    simp [AllBlank, show Text.isBlank ' ' = true from rfl, show Text.isBlank '\t' = true from rfl]
  obtain ⟨hscan, -, hparse⟩ := blanks_move_positions happroaches hblank
  have hends : (scanAll .standard (.start ("1e40" ++ "0+A_1@"))).ending = .error (.invalidToken 9) := by
    decide +kernel
  have herror : parse .standard ("1e40" ++ "0+A_1@") = .error (.invalidExpression 4 "number 0") :=
    eq_error_of_map (by decide +kernel)
  refine ⟨herror, ?_, ?_⟩
  · rw [hparse, herror]
    rfl
  · rw [hscan, TokenRun.move, hends]
    rfl

end CellFormula
