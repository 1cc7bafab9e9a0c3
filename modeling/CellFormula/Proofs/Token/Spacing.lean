import CellFormula.Proofs.Token.Calls
import CellFormula.Proofs.Token.Ends
/-!
# Blanks between tokens

More blanks can stand wherever a token ends or blanks stand already. The scanner stops in front of
them where it has stopped without them, so two cursors, in the text with the blanks and in the text
without them, step over the same tokens and errors. Only the positions behind the blanks move.
-/

namespace CellFormula

open Number

/-! ## Moving positions -/

/-- The token with its position moved. -/
def Token.move (f : Nat → Nat) (t : Token) : Token :=
  { t with position := f t.position }

/-- The error with its position moved. -/
def LexicalError.move (f : Nat → Nat) : LexicalError → LexicalError
  | invalidToken p => invalidToken (f p)
  | unterminatedText p => unterminatedText (f p)

/-- The answer of a stream with its position moved. -/
def moveAnswer (f : Nat → Nat) : Except LexicalError Token → Except LexicalError Token
  | .ok t => .ok (t.move f)
  | .error x => .error (x.move f)

/-- How a text ends, with its position moved. -/
def moveEnding (f : Nat → Nat) : Except LexicalError Nat → Except LexicalError Nat
  | .ok p => .ok (f p)
  | .error x => .error (x.move f)

/-- The run with all its positions moved. -/
def TokenRun.move (f : Nat → Nat) (run : TokenRun) : TokenRun :=
  ⟨run.tokens.map (Token.move f), moveEnding f run.ending⟩

/-- Positions from `place` on move by `n`. -/
def shiftFrom (place n p : Nat) : Nat :=
  if place ≤ p then p + n else p

theorem shiftFrom_of_le {place n p : Nat} (h : place ≤ p) : shiftFrom place n p = p + n :=
  if_pos h

theorem shiftFrom_of_lt {place n p : Nat} (h : p < place) : shiftFrom place n p = p :=
  if_neg (Nat.not_le.2 h)

/-! ## Places between tokens -/

namespace Cursor

/-- The cursor takes some tokens, and then only blanks stand in front of `v`. -/
inductive Approaches (d : Dialect) : Cursor → List Char → Prop
  | blanks {p u v} : AllBlank u → Approaches d ⟨p, u ++ v⟩ v
  | token {s s' t v} : s.next d = (.ok t, s') → t.kind ≠ .endOfInput → Approaches d s' v →
      Approaches d s v

variable {d : Dialect} {s s' : Cursor} {t : Token} {p place : Nat} {c : Char}
  {cs u v w rest blanks : List Char} {kind : TokenKind}

theorem Approaches.exists_front (h : Approaches d s v) : ∃ u, s.rest = u ++ v := by
  induction h with
  | @blanks p u v _ => exact ⟨u, rfl⟩
  | token hnext ht _ ih =>
    obtain ⟨u, hu⟩ := ih
    obtain ⟨blanks, c, cs, -, -, hrest, -⟩ := scanToken_of_next hnext ht
    exact ⟨blanks ++ c :: (cs ++ u), by rw [hrest, hu]; simp⟩

/-- In front of `v` there are only blanks, or another token comes first. -/
theorem Approaches.blanks_or_token (h : Approaches d ⟨p, u ++ v⟩ v) :
    AllBlank u ∨ ∃ blanks c cs u' kind, u = blanks ++ c :: (cs ++ u') ∧ AllBlank blanks ∧
      Text.isBlank c = false ∧ scanToken d c (cs ++ (u' ++ v)) = .ok (kind, u' ++ v) ∧
      Approaches d ⟨p + blanks.length + (cs.length + 1), u' ++ v⟩ v := by
  generalize hs : (⟨p, u ++ v⟩ : Cursor) = s at h
  cases h with
  | blanks hu =>
    obtain ⟨-, htext⟩ := Cursor.mk.inj hs
    cases List.append_cancel_right htext
    exact .inl hu
  | @token _ s' t _ hnext ht hrest =>
    obtain ⟨blanks, c, cs, hblanks, hc, htext, hscan⟩ := scanToken_of_next hnext ht
    obtain ⟨u', hu'⟩ := hrest.exists_front
    obtain ⟨kind, q⟩ := t
    rw [hu'] at htext hscan
    subst hs
    dsimp only at htext
    have hu : u = blanks ++ c :: (cs ++ u') := by
      refine List.append_cancel_right (?_ : u ++ v = blanks ++ c :: (cs ++ u') ++ v)
      simpa using htext
    refine .inr ⟨blanks, c, cs, u', kind, hu, hblanks, hc, hscan, ?_⟩
    rw [htext, next_of_scanToken hblanks hc hscan] at hnext
    cases hnext
    exact hrest

/-- What a cursor answers does not depend on where its text starts, and positions move along with it. -/
theorem next_behind (d : Dialect) (cs : List Char) (n : Nat) (hp : place ≤ p) :
    ∃ answer q rest, place ≤ q ∧ next d ⟨p, cs⟩ = (answer, ⟨q, rest⟩) ∧
      next d ⟨p + n, cs⟩ = (moveAnswer (shiftFrom place n) answer, ⟨q + n, rest⟩) := by
  obtain ⟨blanks, rest, rfl, hblanks, hrest⟩ := exists_blanks cs
  have hplace : place ≤ p + blanks.length := Nat.le_trans hp (Nat.le_add_right _ _)
  have hmove : p + n + blanks.length = shiftFrom place n (p + blanks.length) := by
    rw [shiftFrom_of_le hplace, Nat.add_right_comm]
  rw [next, next, skipBlanks_append hblanks hrest, skipBlanks_append hblanks hrest]
  cases rest with
  | nil =>
    refine ⟨_, _, _, hplace, rfl, ?_⟩
    simp only [moveAnswer, Token.move, ← hmove, Nat.add_right_comm]
  | cons c cs =>
    dsimp only
    cases scanToken d c cs with
    | ok read =>
      refine ⟨_, _, _, Nat.le_trans hplace (Nat.le_add_right _ _), rfl, ?_⟩
      simp only [moveAnswer, Token.move, moveTo, ← hmove, Nat.add_right_comm _ n]
    | error x =>
      cases x with
      | noToken =>
        refine ⟨_, _, _, hplace, rfl, ?_⟩
        simp only [moveAnswer, LexicalError.move, ← hmove, Nat.add_right_comm _ n]
      | noNumber rest | unclosedText =>
        refine ⟨_, _, _, Nat.le_trans hplace (Nat.le_add_right _ _), rfl, ?_⟩
        simp only [moveAnswer, LexicalError.move, moveTo, ← hmove, Nat.add_right_comm _ n]

end Cursor

/-! ## Two cursors -/

/-- The second cursor stands where the first does, in the text that has the blanks `w` in front of `v`.
They come at `place`, and both cursors stand in front of it or both behind it. -/
inductive Spaced (d : Dialect) (v w : List Char) (place : Nat) : Cursor → Cursor → Prop
  | before {p u} : Cursor.Approaches d ⟨p, u ++ v⟩ v → p + u.length = place →
      Spaced d v w place ⟨p, u ++ v⟩ ⟨p, u ++ (w ++ v)⟩
  | behind {p cs} : place ≤ p → Spaced d v w place ⟨p, cs⟩ ⟨p + w.length, cs⟩

section Spaced
variable {d : Dialect} {v w : List Char} {place : Nat} {s s' : Cursor}

/-- Both cursors take the same step. -/
theorem Spaced.next (hw : AllBlank w) (h : Spaced d v w place s s') :
    (s'.next d).1 = moveAnswer (shiftFrom place w.length) (s.next d).1 ∧
      Spaced d v w place (s.next d).2 (s'.next d).2 := by
  cases h with
  | @behind p cs hp =>
    obtain ⟨answer, q, rest, hq, hnext, hnext'⟩ := Cursor.next_behind d cs w.length hp
    rw [hnext, hnext']
    exact ⟨rfl, .behind hq⟩
  | @before p u happroaches hplace =>
    rcases happroaches.blanks_or_token with
      hu | ⟨blanks, c, cs, u', kind, rfl, hblanks, hc, hscan, hrest⟩
    · -- Both cursors get behind the place with this step.
      obtain ⟨answer, q, rest, hq, hnext, hnext'⟩ :=
        Cursor.next_behind d v w.length (Nat.le_refl place)
      have huw : AllBlank (u ++ w) := List.forall_mem_append.2 ⟨hu, hw⟩
      rw [← List.append_assoc, Cursor.next_blanks d p v hu, Cursor.next_blanks d p v huw,
        List.length_append, ← Nat.add_assoc, hplace, hnext, hnext']
      exact ⟨rfl, .behind hq⟩
    · -- The token ends in front of the place, so it is scanned in both texts.
      simp only [List.length_append, List.length_cons] at hplace
      have hlt : p + blanks.length < place := by omega
      simp only [List.append_assoc, List.cons_append]
      rw [Cursor.next_of_scanToken hblanks hc hscan,
        Cursor.next_of_scanToken hblanks hc (scanToken_ended hw.endsToken hscan)]
      refine ⟨?_, .before hrest (by omega)⟩
      rw [moveAnswer, Token.move, shiftFrom_of_lt hlt]

/-- The tokens are the same, and so is how the text ends. -/
theorem Spaced.scanAll_eq (hw : AllBlank w) (h : Spaced d v w place s s') :
    scanAll d s' = (scanAll d s).move (shiftFrom place w.length) := by
  fun_induction scanAll d s generalizing s' with
  | case1 s x s₁ hnext =>
    obtain ⟨hanswer, -⟩ := h.next hw
    rw [hnext] at hanswer
    rw [scanAll_error (Prod.ext hanswer rfl)]
    rfl
  | case2 s t s₁ hnext ht =>
    obtain ⟨hanswer, -⟩ := h.next hw
    obtain ⟨kind, p⟩ := t
    cases ht
    rw [hnext] at hanswer
    rw [scanAll_end (Prod.ext hanswer rfl)]
    rfl
  | case3 s t s₁ hnext ht run =>
    rename_i ih
    obtain ⟨hanswer, hspaced⟩ := h.next hw
    rw [hnext] at hanswer hspaced
    rw [scanAll_token (Prod.ext hanswer rfl) ht, ih hspaced]
    rfl

theorem isFinal_moveAnswer (f : Nat → Nat) (answer : Except LexicalError Token) :
    isFinal (moveAnswer f answer) = isFinal answer := by
  cases answer <;> rfl

/-- So are the answers to any calls. -/
theorem Spaced.answers_eq (hw : AllBlank w) (finished : Bool) (calls : List Call)
    (h : Spaced d v w place s s') :
    TokenStream.answers d ⟨s', finished⟩ calls =
      (TokenStream.answers d ⟨s, finished⟩ calls).map
        (Option.map (moveAnswer (shiftFrom place w.length))) := by
  induction calls generalizing s s' finished with
  | nil => rfl
  | cons c calls ih =>
    obtain ⟨hanswer, hspaced⟩ := h.next hw
    rw [TokenStream.answers, TokenStream.answers, List.map_cons]
    cases c with
    | next => exact congrArg₂ List.cons (congrArg some hanswer) (ih finished hspaced)
    | advance =>
      cases finished with
      | true => exact congrArg₂ List.cons rfl (ih true h)
      | false =>
        rw [TokenStream.call, TokenStream.call, TokenStream.advance_unfinished rfl,
          TokenStream.advance_unfinished rfl, hanswer, isFinal_moveAnswer]
        exact congrArg₂ List.cons rfl (ih _ hspaced)

end Spaced

end CellFormula
