import CellFormula.Proofs.Expr.Lockstep
import CellFormula.Proofs.Token.Segmentation
/-!
# Positions of errors

An error of the parser keeps the position of one token. The parser only takes tokens off the front, so
the tokens it has left are always the last ones of the text, and a parenthesis that it has to close is
one of those before them. Where a text cannot be cut any further, the tokens in front of that place stand
in a row of segments, which shows that the place is not inside one of them.
-/

namespace CellFormula

/-! ## Errors and the tokens they are about -/

/-- The end of the text as a token, where no error comes first. -/
def endTokens : Except LexicalError Nat → List Token
  | .ok p => [⟨.endOfInput, p⟩]
  | .error _ => []

/-- All tokens of the run, the end of the text among them. -/
def TokenRun.all (run : TokenRun) : List Token :=
  run.tokens ++ endTokens run.ending

/-- What an error says is true of the tokens: the token at its position is the one that it tells of or
quotes by its description, and a missing parenthesis is not there behind the name of the function. -/
def ParseError.IsAbout (run : TokenRun) : ParseError → Prop
  | lexical x => run.ending = .error x
  | unclosedParenthesis p => ⟨.delimiter '(', p⟩ ∈ run.tokens
  | invalidExpression p found => ∃ kind, ⟨kind, p⟩ ∈ run.all ∧ found = kind.describe
  | invalidRange p => ⟨.delimiter ':', p⟩ ∈ run.tokens
  | missingParenthesis p name => ∃ before q t after,
      run.all = before ++ ⟨.function name, q⟩ :: t :: after ∧ t.position = p ∧ t.kind ≠ .delimiter '('

namespace Expr

section Parser
variable {run : TokenRun}

theorem lifts_leading_self (run : TokenRun) (ts : List Token) :
    Lifts (fun x y => y = x ∧ x.IsAbout run)
      (fun t u => u = t ∧ ∃ after, ts ++ endTokens run.ending = t :: after)
      (leading run.ending ts) (leading run.ending ts) := by
  obtain ⟨tokens, ending⟩ := run
  cases ts with
  | cons t ts => exact .ok ⟨rfl, _, rfl⟩
  | nil =>
    cases ending with
    | ok p => exact .ok ⟨rfl, [], rfl⟩
    | error x => exact .error ⟨rfl, rfl⟩

theorem mem_all {ts after : List Token} {t : Token} (hts : ts <:+ run.tokens)
    (ht : ts ++ endTokens run.ending = t :: after) : t ∈ run.all := by
  obtain ⟨before, hbefore⟩ := hts
  rw [TokenRun.all, ← hbefore, List.append_assoc, ht]
  simp

/-- The token behind a name with no parenthesis is the next one of the run, and is no parenthesis. -/
theorem isAbout_missingParenthesis {ts after : List Token} {t : Token} {name : String} {q : Nat}
    (hts : ⟨.function name, q⟩ :: ts <:+ run.tokens) (ho : ¬LedBy (.delimiter '(') ts)
    (ht : ts ++ endTokens run.ending = t :: after) :
    (ParseError.missingParenthesis t.position name).IsAbout run := by
  obtain ⟨before, hbefore⟩ := hts
  refine ⟨before, q, t, after, ?_, rfl, fun hkind => ?_⟩
  · rw [TokenRun.all, ← hbefore, List.append_assoc, List.cons_append, ht]
  · obtain ⟨kind, p⟩ := t
    cases hkind
    cases ts with
    | nil =>
      unfold endTokens at ht
      split at ht <;> cases ht
    | cons t ts =>
      cases ht
      exact ho ⟨p, ts, rfl⟩

/-- What the parser has left are always the last tokens of the run. -/
theorem lockstep_self (run : TokenRun) :
    Lockstep run.ending run.ending (fun ts us => us = ts ∧ ts <:+ run.tokens)
      (fun p q => q = p ∧ ⟨.delimiter '(', p⟩ ∈ run.tokens) (fun x y => y = x ∧ x.IsAbout run) where
  kinds := fun hts => congrArg (List.map Token.kind) hts.1
  tail := by
    rintro t u ts us ⟨hus, hts⟩
    exact ⟨(List.cons.inj hus).2, (List.suffix_cons t ts).trans hts⟩
  opening := by
    rintro p q ts us ⟨hus, hts⟩
    exact ⟨congrArg Token.position (List.cons.inj hus).1, hts.subset List.mem_cons_self⟩
  unclosed := by
    rintro p _ ⟨rfl, hopened⟩
    exact ⟨rfl, hopened⟩
  unexpected := by
    rintro ts _ ⟨rfl, hts⟩
    refine (lifts_leading_self run _).mono ?_
    rintro t _ ⟨rfl, after, ht⟩
    exact ⟨rfl, rfl, _, mem_all hts ht, rfl⟩
  noRange := by
    rintro p q ts us ⟨hus, hts⟩
    cases hus
    exact ⟨rfl, hts.subset List.mem_cons_self⟩
  noParenthesis := by
    rintro name p q ts us ⟨hus, hts⟩ ho
    cases hus
    refine (lifts_leading_self run ts).mono ?_
    rintro t _ ⟨rfl, after, ht⟩
    exact ⟨rfl, isAbout_missingParenthesis hts ho ht⟩

/-- The errors of the parser are about the tokens that it is given. -/
theorem isAbout_of_ofTokens {x : ParseError} (h : ofTokens run = .error x) : x.IsAbout run := by
  have hlifts := (lockstep_self run).ofTokens ⟨rfl, List.suffix_rfl⟩
  rw [h] at hlifts
  cases hlifts with
  | error hx => exact hx.2

end Parser

end Expr

/-! ## Positions in a text -/

/-- The token is in the text at its position: a lexeme spells it there, or the text ends there. -/
inductive Token.StandsIn (d : Dialect) : List Char → Token → Prop
  | lexeme {before lexeme rest kind} : Lexeme d kind lexeme rest →
      StandsIn d (before ++ (lexeme ++ rest)) ⟨kind, before.length⟩
  | finish {cs} : StandsIn d cs ⟨.endOfInput, cs.length⟩

open Segment

theorem Segment.Row.standsIn {d : Dialect} {gs : List Segment} {last : List Char} {g : Segment}
    (h : Row d 0 last gs) (hg : g ∈ gs) : g.token.StandsIn d (gs.flatMap chars ++ last) := by
  obtain ⟨before, after, rfl⟩ := List.append_of_mem hg
  obtain ⟨-, hposition, hlexeme⟩ := h.fits rfl
  obtain ⟨blanks, lexeme, kind, position⟩ := g
  have htext : (before ++ ⟨blanks, lexeme, kind, position⟩ :: after).flatMap chars ++ last =
      (before.flatMap chars ++ blanks) ++ (lexeme ++ (after.flatMap chars ++ last)) := by
    simp [chars]
  have hlen : position = (before.flatMap chars ++ blanks).length := by
    rw [List.length_append]
    exact hposition.trans (by rw [Nat.zero_add])
  rw [htext, hlen]
  exact .lexeme hlexeme

theorem standsIn_of_mem_all {d : Dialect} {text : String} {t : Token}
    (h : t ∈ (scanAll d (.start text)).all) : t.StandsIn d text.toList := by
  obtain ⟨gs, last, hrest, hrow, htokens, htail⟩ := row_and_tail_of_scanAll d (.start text)
  rw [TokenRun.all, htokens] at h
  rw [show text.toList = gs.flatMap chars ++ last from hrest]
  rcases List.mem_append.1 h with h | h
  · obtain ⟨g, hg, rfl⟩ := List.mem_map.1 h
    exact hrow.standsIn hg
  · generalize (scanAll d (.start text)).ending = ending at h htail
    cases htail with
    | finish =>
      cases List.mem_singleton.1 h
      rw [show (Cursor.start text).position = 0 from rfl, Nat.zero_add, ← List.length_append]
      exact .finish
    | invalidToken => cases h
    | unterminatedText => cases h

/-- Every error points at what it says. The tokens stand in the text at their positions, and a
parenthesis, a `:` or an unexpected token that an error is about is one of them or the end of the text;
an unexpected token is quoted by its description. A lexical error points at the first character behind
all tokens and blanks: one that starts no token, or a quote that nothing closes. -/
theorem parse_errors_point_at_tokens {d : Dialect} {text : String} {x : ParseError}
    (h : Expr.parse d text = .error x) :
    x.IsAbout (scanAll d (.start text)) ∧
    (∀ t ∈ (scanAll d (.start text)).all, t.StandsIn d text.toList) ∧
    ∀ e, x = .lexical e → ∃ gs last, text.toList = gs.flatMap chars ++ last ∧ Row d 0 last gs ∧
      (scanAll d (.start text)).tokens = gs.map token ∧
      Tail d (gs.flatMap chars).length last (.error e) := by
  have habout : x.IsAbout (scanAll d (.start text)) := Expr.isAbout_of_ofTokens h
  refine ⟨habout, fun t ht => standsIn_of_mem_all ht, ?_⟩
  rintro e rfl
  obtain ⟨gs, last, hrest, hrow, htokens, htail⟩ := row_and_tail_of_scanAll d (.start text)
  rw [show (scanAll d (.start text)).ending = .error e from habout] at htail
  rw [show (Cursor.start text).position = 0 from rfl, Nat.zero_add] at htail
  exact ⟨gs, last, hrest, hrow, htokens, htail⟩

/-- The token behind the inner name, two parentheses deep. -/
theorem parse_name_without_parenthesis :
    Expr.parse .standard "MAX(1,(SUM 2))" = .error (.missingParenthesis 11 "SUM") ∧
    ∃ before q t after, (scanAll .standard (.start "MAX(1,(SUM 2))")).all =
      before ++ ⟨.function "SUM", q⟩ :: t :: after ∧ t.position = 11 ∧ t.kind ≠ .delimiter '(' := by
  have herror : Expr.parse .standard "MAX(1,(SUM 2))" = .error (.missingParenthesis 11 "SUM") :=
    Expr.eq_error_of_map (by decide +kernel)
  exact ⟨herror, (parse_errors_point_at_tokens herror).1⟩

end CellFormula
