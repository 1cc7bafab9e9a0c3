import CellFormula.Proofs.Token.Lexeme
/-!
# Calls to a stream of tokens

A stream can be asked for tokens with `next` and with `advance`, in any order. Each answer is the
next item of one sequence: the tokens of the text and then, for ever, its end or the character that
starts no token, where a quote that nothing closes is reported once in front of the end. Only what
`advance` itself has answered silences it.
-/

namespace CellFormula

/-! ## Driving a stream -/

/-- The two ways to ask a stream for a token. -/
inductive Call where
  | next
  | advance
  deriving DecidableEq

namespace TokenStream

/-- The answer to a call, if there is one, and the stream after it. -/
def call (d : Dialect) (s : TokenStream) : Call → Option (Except LexicalError Token) × TokenStream
  | .next => (some (s.next d).1, (s.next d).2)
  | .advance => s.advance d

/-- The answers to calls one after another. -/
def answers (d : Dialect) (s : TokenStream) : List Call → List (Option (Except LexicalError Token))
  | [] => []
  | c :: cs => (s.call d c).1 :: answers d (s.call d c).2 cs

end TokenStream

/-- The end or an error. -/
def isFinal : Except LexicalError Token → Bool
  | .ok t => t.isEnd
  | .error _ => true

/-- The item in the `k`-th place of what a text of the given length yields: the tokens, and behind
them the end, or the position that no token starts at, in every place. An unclosed quoted text has
one place between the tokens and the end. -/
def TokenRun.item (run : TokenRun) (length k : Nat) : Except LexicalError Token :=
  match run.tokens[k]?, run.ending with
  | some t, _ => .ok t
  | none, .ok p => .ok ⟨.endOfInput, p⟩
  | none, .error (.invalidToken p) => .error (.invalidToken p)
  | none, .error (.unterminatedText p) =>
    if k = run.tokens.length then .error (.unterminatedText p) else .ok ⟨.endOfInput, length⟩

section Item
variable {t : Token} {ts : List Token} {ending : Except LexicalError Nat} {length k : Nat}

theorem item_zero : TokenRun.item ⟨t :: ts, ending⟩ length 0 = .ok t := rfl

theorem item_succ : TokenRun.item ⟨t :: ts, ending⟩ length (k + 1) = TokenRun.item ⟨ts, ending⟩ length k := by
  simp only [TokenRun.item, List.getElem?_cons_succ, List.length_cons, Nat.add_right_cancel_iff]

end Item

/-! ## What a cursor yields -/

namespace Cursor

/-- What the cursor yields after `k` steps. -/
def yield (d : Dialect) (s : Cursor) : Nat → Except LexicalError Token
  | 0 => (s.next d).1
  | k + 1 => yield d (s.next d).2 k

variable {d : Dialect} {s s' : Cursor}

theorem yield_stuck {answer : Except LexicalError Token} (h : s.next d = (answer, s)) (k : Nat) :
    s.yield d k = answer := by
  induction k with
  | zero => rw [yield, h]
  | succ k ih => rw [yield, h, ih]

/-- The cursor stays in front of a character that starts no token. -/
theorem next_invalidToken {p : Nat} (h : s.next d = (.error (.invalidToken p), s')) :
    s'.position = p ∧ s'.next d = (.error (.invalidToken p), s') := by
  cases h ▸ s.steps_next d with
  | @noToken _ _ c cs _ hc hop hdel =>
    have hscan : scanToken d c cs = .error .noToken := by
      simp [scanToken, hc.not_digit, hc.not_letter, hc.not_quote, hop, hdel]
    exact ⟨rfl, by simp only [next, skipBlanks_of_not_blank hc.not_blank, hscan]⟩

/-- The steps of a cursor go through the items of the text in front of it. -/
theorem yield_eq_item (k : Nat) :
    s.yield d k = (scanAll d s).item (s.position + s.rest.length) k := by
  fun_induction scanAll d s generalizing k with
  | case1 s x s' hnext =>
    cases k with
    | zero =>
      rw [yield, hnext]
      cases x <;> rfl
    | succ k =>
      rw [yield, hnext]
      -- The cursor stays in front of a character, but an open text takes it to the end first.
      cases x with
      | invalidToken p => exact yield_stuck (next_invalidToken hnext).2 k
      | unterminatedText p =>
        cases hnext ▸ s.steps_next d with
        | unclosedText =>
          rw [yield_stuck (next_nil d _)]
          simp [TokenRun.item, Nat.add_assoc]
  | case2 s t s' hnext ht =>
    cases hnext ▸ s.steps_next d with
    | token _ hlexeme => exact absurd ht hlexeme.kind_ne_endOfInput
    | finish =>
      cases k with
      | zero => rw [yield, hnext]; rfl
      | succ k => rw [yield, hnext, yield_stuck (next_nil d _)]; rfl
  | case3 s t s' hnext ht run ih =>
    cases k with
    | zero => rw [yield, hnext, item_zero]
    | succ k =>
      rw [yield, hnext, item_succ, ih]
      cases hnext ▸ s.steps_next d with
      | finish => exact absurd rfl ht
      | token => simp only [List.length_append, Nat.add_assoc, run]

/-- Items come again and again from a place on that the length of the text bounds. -/
theorem exists_repeated_item (d : Dialect) (s : Cursor) (length : Nat) :
    ∃ m ≤ s.rest.length, ∀ k, m ≤ k →
      (scanAll d s).item length k = (scanAll d s).item length m := by
  fun_induction scanAll d s with
  | case1 s x s' hnext =>
    cases x with
    | invalidToken p => exact ⟨0, Nat.zero_le _, fun _ _ => rfl⟩
    | unterminatedText p =>
      cases hnext ▸ s.steps_next d with
      | unclosedText =>
        refine ⟨1, ?_, fun k hk => ?_⟩
        · simp only [List.length_append, List.length_cons]
          omega
        · have hk : k ≠ 0 := by omega
          simp [TokenRun.item, hk]
  | case2 => exact ⟨0, Nat.zero_le _, fun _ _ => rfl⟩
  | case3 s t s' hnext ht run ih =>
    obtain ⟨m, hm, hrepeat⟩ := ih
    have hlt := length_next_lt hnext ht
    refine ⟨m + 1, by omega, fun k hk => ?_⟩
    obtain ⟨k, rfl⟩ : ∃ k', k = k' + 1 := ⟨k - 1, by omega⟩
    rw [item_succ, item_succ]
    exact hrepeat k (by omega)

end Cursor

/-! ## What calls answer -/

namespace TokenStream

variable {d : Dialect} {s : TokenStream}

theorem advance_finished (h : s.finished = true) : s.advance d = (none, s) := by
  rw [advance, if_pos h]

theorem advance_unfinished (h : s.finished = false) :
    s.advance d = (some (s.cursor.next d).1, ⟨(s.cursor.next d).2, isFinal (s.cursor.next d).1⟩) := by
  rw [advance, if_neg (by simp [h])]
  rfl

/-- A call answers with what the cursor yields and moves it on, or it does neither. -/
theorem call_cases (d : Dialect) (s : TokenStream) (c : Call) :
    ((s.call d c).1 = some (s.cursor.next d).1 ∧ (s.call d c).2.cursor = (s.cursor.next d).2) ∨
    s.call d c = (none, s) := by
  cases c with
  | next => exact .inl ⟨rfl, rfl⟩
  | advance =>
    cases h : s.finished with
    | true => exact .inr (advance_finished h)
    | false =>
      rw [call, advance_unfinished h]
      exact .inl ⟨rfl, rfl⟩

theorem reduceOption_answers (calls : List Call) :
    (s.answers d calls).reduceOption =
      (List.range (s.answers d calls).reduceOption.length).map (s.cursor.yield d) := by
  induction calls generalizing s with
  | nil => rfl
  | cons c calls ih =>
    rcases call_cases d s c with ⟨hanswer, hcursor⟩ | hcall
    · have hih := ih (s := (s.call d c).2)
      rw [hcursor] at hih
      rw [answers, hanswer, List.reduceOption_cons_of_some, List.length_cons,
        List.range_succ_eq_map, List.map_cons, List.map_map]
      exact congrArg _ hih
    · rw [answers, hcall, List.reduceOption_cons_of_none]
      exact ih

/-- Whether the call is `advance` and answers with the end or an error. -/
def Finishes (c : Call) (answer : Option (Except LexicalError Token)) : Prop :=
  c = .advance ∧ ∃ r, answer = some r ∧ isFinal r = true

theorem finished_call (d : Dialect) (s : TokenStream) (c : Call) :
    (s.call d c).2.finished = true ↔ s.finished = true ∨ Finishes c (s.call d c).1 := by
  cases c with
  | next => simp [call, next, Finishes]
  | advance =>
    cases h : s.finished with
    | true => simp [call, advance_finished h, h]
    | false => simp [call, advance_unfinished h, Finishes]

theorem call_eq_none {c : Call} : (s.call d c).1 = none ↔ c = .advance ∧ s.finished = true := by
  cases c with
  | next => simp [call]
  | advance =>
    cases h : s.finished with
    | true => simp [call, advance_finished h]
    | false => simp [call, advance_unfinished h]

/-- One of the first `i` calls is `advance` and answers with the end or an error. -/
def FinishedBefore (calls : List Call) (answers : List (Option (Except LexicalError Token)))
    (i : Nat) : Prop :=
  ∃ j < i, ∃ c ∈ calls[j]?, ∃ answer ∈ answers[j]?, Finishes c answer

theorem finishedBefore_succ {c : Call} {calls : List Call} {i : Nat}
    {answer : Option (Except LexicalError Token)}
    {answers : List (Option (Except LexicalError Token))} :
    FinishedBefore (c :: calls) (answer :: answers) (i + 1) ↔
      Finishes c answer ∨ FinishedBefore calls answers i := by
  constructor
  · rintro ⟨j, hj, c', hc, answer', hanswer, hfinishes⟩
    cases j with
    | zero =>
      cases hc
      cases hanswer
      exact .inl hfinishes
    | succ j => exact .inr ⟨j, by omega, c', hc, answer', hanswer, hfinishes⟩
  · rintro (hfinishes | ⟨j, hj, c', hc, answer', hanswer, hfinishes⟩)
    · exact ⟨0, by omega, c, rfl, answer, rfl, hfinishes⟩
    · exact ⟨j + 1, by omega, c', hc, answer', hanswer, hfinishes⟩

theorem getElem?_answers_eq_none {calls : List Call} {i : Nat} :
    (s.answers d calls)[i]? = some none ↔ calls[i]? = some .advance ∧
      (s.finished = true ∨ FinishedBefore calls (s.answers d calls) i) := by
  induction calls generalizing s i with
  | nil => simp [answers]
  | cons c calls ih =>
    cases i with
    | zero => simp [answers, call_eq_none, FinishedBefore]
    | succ i =>
      rw [answers, List.getElem?_cons_succ, List.getElem?_cons_succ, ih, finished_call, or_assoc,
        finishedBefore_succ]

end TokenStream

open TokenStream

/-- However a stream is driven by calls, its answers are the first items of one sequence, and a
character that starts no token holds the cursor in front of it. Only a call of `advance` answers
nothing, exactly if one before it has met the end or an error, and this leaves the stream where it
is. From some place on, not behind as many items as there are characters, all items are the same. -/
theorem answers_are_items (d : Dialect) (text : String) (calls : List Call) :
    let answers := (ofText text).answers d calls
    let item := (scanAll d (.start text)).item text.length
    answers.reduceOption = (List.range answers.reduceOption.length).map item ∧
    (∀ (s s' : Cursor) (p : Nat), s.next d = (.error (.invalidToken p), s') →
      s'.position = p ∧ s'.next d = (.error (.invalidToken p), s')) ∧
    (∀ i : Nat, answers[i]? = some none ↔
      calls[i]? = some .advance ∧ FinishedBefore calls answers i) ∧
    (∀ (s : TokenStream) (c : Call), (s.call d c).1 = none → (s.call d c).2 = s) ∧
    ∃ m ≤ text.length, ∀ k, m ≤ k → item k = item m := by
  have hlen : (Cursor.start text).rest.length = text.length := by
    simp [Cursor.start, String.length_toList]
  have hitem : (ofText text).cursor.yield d = (scanAll d (.start text)).item text.length := by
    funext k
    rw [← hlen, ← Nat.zero_add (Cursor.start text).rest.length]
    exact Cursor.yield_eq_item k
  refine ⟨?_, fun s s' p h => Cursor.next_invalidToken h, fun i => ?_, fun s c hnone => ?_, ?_⟩
  · rw [← hitem]
    exact reduceOption_answers calls
  · rw [getElem?_answers_eq_none]
    simp [ofText]
  · rcases call_cases d s c with ⟨hanswer, -⟩ | hcall
    · cases hnone.symm.trans hanswer
    · rw [hcall]
  · rw [← hlen]
    exact Cursor.exists_repeated_item d (.start text) _

end CellFormula
