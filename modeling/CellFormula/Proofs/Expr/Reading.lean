import CellFormula.Expr.Parser
/-!
# What the parser reads

`Reads x a rest` says that a reader answered `a` and left `rest`. Each function of the parser has
an equation for the runs that succeed, by the tokens in front, and nothing else is needed to reason
about accepted formulas. A function that can find no way to go on has an equation for its error.
-/

namespace CellFormula.Expr

/-- A reader answers `a` and leaves `rest`. -/
def Reads {α : Type} {P : List Token → Prop}
    (x : Except ParseError (α × { ts : List Token // P ts })) (a : α) (rest : List Token) : Prop :=
  ∃ h : P rest, x = .ok (a, ⟨rest, h⟩)

section Reads
variable {α β : Type} {P Q : List Token → Prop}

theorem bind_eq_ok {x : Except ParseError α} {f : α → Except ParseError β} {b : β} :
    (x >>= f) = .ok b ↔ ∃ a, x = .ok a ∧ f a = .ok b := by
  cases x <;> simp [bind, Except.bind]

theorem reads_bind {x : Except ParseError (α × { ts : List Token // P ts })}
    {f : α × { ts : List Token // P ts } → Except ParseError (β × { ts : List Token // Q ts })}
    {b : β} {rest : List Token} :
    Reads (x >>= f) b rest ↔ ∃ a mid, ∃ h : P mid, x = .ok (a, ⟨mid, h⟩) ∧
      Reads (f (a, ⟨mid, h⟩)) b rest := by
  constructor
  · rintro ⟨hr, hx⟩
    obtain ⟨⟨a, mid, h⟩, ha, hf⟩ := bind_eq_ok.1 hx
    exact ⟨a, mid, h, ha, hr, hf⟩
  · rintro ⟨a, mid, h, ha, hr, hf⟩
    exact ⟨hr, bind_eq_ok.2 ⟨_, ha, hf⟩⟩

theorem reads_pure {a b : α} {ts : { ts : List Token // P ts }} {rest : List Token} :
    Reads (pure (a, ts)) b rest ↔ a = b ∧ ts.1 = rest := by
  constructor
  · rintro ⟨_, hx⟩
    cases hx
    exact ⟨rfl, rfl⟩
  · rintro ⟨rfl, rfl⟩
    exact ⟨ts.2, rfl⟩

/-- An error can be told without telling trees apart. -/
theorem eq_error_of_map {x : Except ParseError α} {e : ParseError}
    (h : (x.map fun _ => ()) = .error e) : x = .error e := by
  cases x with
  | ok a => cases h
  | error e' =>
    cases h
    rfl

theorem not_reads_throw {e : ParseError} {a : α} {rest : List Token} :
    ¬Reads (P := P) (throw e) a rest := by
  rintro ⟨_, hx⟩
  cases hx

theorem Reads.unique {x : Except ParseError (α × { ts : List Token // P ts })} {a b : α}
    {rest rest' : List Token} (h : Reads x a rest) (h' : Reads x b rest') : a = b ∧ rest = rest' := by
  obtain ⟨_, hx⟩ := h
  obtain ⟨_, hx'⟩ := h'
  cases hx.symm.trans hx'
  exact ⟨rfl, rfl⟩

end Reads

/-- A token of this kind comes first. -/
def LedBy (k : TokenKind) (ts : List Token) : Prop :=
  ∃ p ts', ts = ⟨k, p⟩ :: ts'

variable {ending : Except LexicalError Nat} {level : Level} {ts rest : List Token} {e left : Expr}
  {t : Token} {p opened : Nat}

/-! ## Chains -/

theorem reads_chain : Reads (parseChain ending level ts) e rest ↔
    ∃ first mid, Reads (parseOperand ending level ts) first mid ∧
      Reads (parseLinks ending level first mid) e rest := by
  rw [parseChain]
  simp only [reads_bind, reads_pure]
  constructor
  · rintro ⟨first, mid, h, ho, _, _, h', hl, rfl, rfl⟩
    exact ⟨first, mid, ⟨h, ho⟩, h', hl⟩
  · rintro ⟨first, mid, ⟨h, ho⟩, h', hl⟩
    exact ⟨first, mid, h, ho, e, rest, h', hl, rfl, rfl⟩

theorem reads_links_nil : Reads (parseLinks ending level left []) e rest ↔
    (∃ p, ending = .ok p) ∧ e = left ∧ rest = [] := by
  rw [parseLinks]
  constructor
  · rintro ⟨h, hx⟩
    obtain ⟨t, ht, hx⟩ := bind_eq_ok.1 hx
    cases hx
    cases ending with
    | ok p => exact ⟨⟨p, rfl⟩, rfl, rfl⟩
    | error x => cases ht
  · rintro ⟨⟨p, rfl⟩, rfl, rfl⟩
    exact ⟨_, rfl⟩

theorem reads_links_stop (h : level.operator? t.kind = none) :
    Reads (parseLinks ending level left (t :: ts)) e rest ↔ e = left ∧ rest = t :: ts := by
  rw [parseLinks]
  simp only [h, reads_pure, eq_comm]

theorem reads_links_step {op : BinaryOperator} (h : level.operator? t.kind = some op) :
    Reads (parseLinks ending level left (t :: ts)) e rest ↔
      ∃ right mid, Reads (parseOperand ending level ts) right mid ∧
        Reads (parseLinks ending level (.binary op left right) mid) e rest := by
  rw [parseLinks]
  simp only [h, reads_bind, reads_pure]
  constructor
  · rintro ⟨right, mid, h, ho, _, _, h', hl, rfl, rfl⟩
    exact ⟨right, mid, ⟨h, ho⟩, h', hl⟩
  · rintro ⟨right, mid, ⟨h, ho⟩, h', hl⟩
    exact ⟨right, mid, h, ho, e, rest, h', hl, rfl, rfl⟩

/-! ## Unary terms and atoms -/

theorem reads_unary_minus :
    Reads (parseUnary ending (⟨.operator '-', p⟩ :: ts)) e rest ↔
      ∃ a, Reads (parseAtom ending ts) a rest ∧ e = .unary .negate a := by
  rw [parseUnary]
  simp only [reads_bind, reads_pure]
  constructor
  · rintro ⟨a, mid, h, ha, rfl, rfl⟩
    exact ⟨a, ⟨h, ha⟩, rfl⟩
  · rintro ⟨a, ⟨h, ha⟩, rfl⟩
    exact ⟨a, rest, h, ha, rfl, rfl⟩

theorem parseUnary_of_not_minus (h : ¬LedBy (.operator '-') ts) :
    parseUnary ending ts = parseAtom ending ts := by
  rw [parseUnary]
  exact fun p ts' hts => h ⟨p, ts', hts⟩

theorem reads_atom_number {n : Float} :
    Reads (parseAtom ending (⟨.number n, p⟩ :: ts)) e rest ↔ e = .number n ∧ rest = ts := by
  rw [parseAtom]
  simp only [reads_pure, eq_comm]

theorem reads_atom_text {s : String} :
    Reads (parseAtom ending (⟨.text s, p⟩ :: ts)) e rest ↔ e = .text s ∧ rest = ts := by
  rw [parseAtom]
  simp only [reads_pure, eq_comm]

theorem reads_atom_reference {id : String} :
    Reads (parseAtom ending (⟨.reference id, p⟩ :: ts)) e rest ↔
      e = .reference id ∧ rest = ts := by
  rw [parseAtom]
  simp only [reads_pure, eq_comm]

theorem readClosing_eq_ok {rest' : Shorter ts} : readClosing opened ts = .ok rest' ↔
    ∃ p, ts = ⟨.delimiter ')', p⟩ :: rest'.1 := by
  unfold readClosing
  split
  · rename_i p us
    simp only [Except.ok.injEq, List.cons.injEq, Token.mk.injEq, true_and, exists_and_right,
      exists_eq', Subtype.ext_iff]
  · rename_i h
    simp only [reduceCtorEq, false_iff, not_exists]
    exact fun p hp => h p _ hp

theorem reads_atom_parens :
    Reads (parseAtom ending (⟨.delimiter '(', p⟩ :: ts)) e rest ↔
      ∃ p', Reads (parseChain ending .sum ts) e (⟨.delimiter ')', p'⟩ :: rest) := by
  rw [parseAtom]
  simp only [reads_bind]
  constructor
  · rintro ⟨a, mid, h, ha, hr, hx⟩
    obtain ⟨⟨us, hu⟩, hc, hx⟩ := bind_eq_ok.1 hx
    cases hx
    obtain ⟨p', hm⟩ := readClosing_eq_ok.1 hc
    have hread : Reads (parseChain ending .sum ts) e mid := ⟨h, ha⟩
    exact ⟨p', hm ▸ hread⟩
  · rintro ⟨p', h, ha⟩
    refine ⟨e, _, h, ha, ?_, bind_eq_ok.2 ⟨⟨rest, by simp⟩, readClosing_eq_ok.2 ⟨p', rfl⟩, rfl⟩⟩
    simp only [List.length_cons] at h ⊢
    omega

theorem reads_atom_call {name : String} :
    Reads (parseAtom ending (⟨.function name, p⟩ :: ⟨.delimiter '(', opened⟩ :: ts)) e rest ↔
      ∃ as, Reads (parseArguments ending opened ts) as rest ∧ e = .call name as := by
  rw [parseAtom]
  simp only [reads_bind, reads_pure]
  constructor
  · rintro ⟨as, mid, h, ha, rfl, rfl⟩
    exact ⟨as, ⟨h, ha⟩, rfl⟩
  · rintro ⟨as, ⟨h, ha⟩, rfl⟩
    exact ⟨as, rest, h, ha, rfl, rfl⟩

/-- The tokens that an atom can start with. -/
def startsAtom : TokenKind → Bool
  | .number _ | .text _ | .reference _ | .function _ | .delimiter '(' => true
  | _ => false

theorem parseAtom_of_not_startsAtom (h : ∀ t ∈ ts.head?, startsAtom t.kind = false) :
    parseAtom ending ts =
      (leading ending ts >>= fun t => throw (.invalidExpression t.position t.kind.describe)) := by
  rw [parseAtom.eq_def]
  split
  all_goals first
    | rfl
    | cases h _ rfl

theorem parseAtom_function {name : String} (h : ¬LedBy (.delimiter '(') ts) :
    parseAtom ending (⟨.function name, p⟩ :: ts) =
      (leading ending ts >>= fun t => throw (.missingParenthesis t.position name)) := by
  rw [parseAtom]
  exact fun p ts' hts => h ⟨p, ts', hts⟩

theorem not_reads_bind_throw {α : Type} {P : List Token → Prop} {x : Except ParseError Token}
    {f : Token → ParseError} {a : α} : ¬Reads (P := P) (x >>= fun t => throw (f t)) a rest := by
  rintro ⟨_, hx⟩
  obtain ⟨t, -, hx⟩ := bind_eq_ok.1 hx
  cases hx

theorem reads_atom_head (h : Reads (parseAtom ending ts) e rest) :
    ∃ t ts', ts = t :: ts' ∧ startsAtom t.kind = true := by
  by_cases hs : ∀ t ∈ ts.head?, startsAtom t.kind = false
  · rw [parseAtom_of_not_startsAtom hs] at h
    exact absurd h not_reads_bind_throw
  · simpa [List.head?_eq_some_iff, ← exists_and_right] using hs

theorem not_reads_atom_function {name : String} (h : ¬LedBy (.delimiter '(') ts) :
    ¬Reads (parseAtom ending (⟨.function name, p⟩ :: ts)) e rest := by
  rw [parseAtom_function h]
  exact not_reads_bind_throw

/-- Whatever level is read, a unary term is read first. -/
theorem reads_unary_of_chain (h : Reads (parseChain ending level ts) e rest) :
    ∃ a mid, Reads (parseUnary ending ts) a mid := by
  obtain ⟨a, mid, ho, -⟩ := reads_chain.1 h
  cases level with
  | power =>
    rw [parseOperand] at ho
    exact ⟨a, mid, ho⟩
  | product =>
    rw [parseOperand] at ho
    obtain ⟨b, mid', ho, -⟩ := reads_chain.1 ho
    rw [parseOperand] at ho
    exact ⟨b, mid', ho⟩
  | sum =>
    rw [parseOperand] at ho
    obtain ⟨b, mid', ho, -⟩ := reads_chain.1 ho
    rw [parseOperand] at ho
    obtain ⟨c, mid'', ho, -⟩ := reads_chain.1 ho
    rw [parseOperand] at ho
    exact ⟨c, mid'', ho⟩

theorem not_reads_chain_close : ¬Reads (parseChain ending level (⟨.delimiter ')', p⟩ :: ts)) e rest := by
  intro h
  obtain ⟨a, mid, hu⟩ := reads_unary_of_chain h
  rw [parseUnary_of_not_minus (by simp [LedBy])] at hu
  obtain ⟨t, ts', ht, hs⟩ := reads_atom_head hu
  cases ht
  cases hs

/-! ## Arguments -/

variable {as : List Expr} {last : Expr}

theorem reads_arguments_close :
    Reads (parseArguments ending opened (⟨.delimiter ')', p⟩ :: ts)) as rest ↔
      as = [] ∧ rest = ts := by
  rw [parseArguments]
  simp only [reads_pure, eq_comm]

theorem reads_arguments_first (h : ¬LedBy (.delimiter ')') ts) :
    Reads (parseArguments ending opened ts) as rest ↔
      ∃ first mid, Reads (parseChain ending .sum ts) first mid ∧
        Reads (parseFurther ending opened first mid) as rest := by
  rw [parseArguments]
  · simp only [reads_bind, reads_pure]
    constructor
    · rintro ⟨first, mid, h, hc, _, _, h', hf, rfl, rfl⟩
      exact ⟨first, mid, ⟨h, hc⟩, h', hf⟩
    · rintro ⟨first, mid, ⟨h, hc⟩, h', hf⟩
      exact ⟨first, mid, h, hc, as, rest, h', hf, rfl, rfl⟩
  · exact fun p ts' hts => h ⟨p, ts', hts⟩

theorem reads_further_close :
    Reads (parseFurther ending opened last (⟨.delimiter ')', p⟩ :: ts)) as rest ↔
      as = [last] ∧ rest = ts := by
  rw [parseFurther]
  simp only [reads_pure, eq_comm]

theorem reads_further_comma :
    Reads (parseFurther ending opened last (⟨.delimiter ',', p⟩ :: ts)) as rest ↔
      ∃ e mid as', Reads (parseChain ending .sum ts) e mid ∧
        Reads (parseFurther ending opened e mid) as' rest ∧ as = last :: as' := by
  rw [parseFurther]
  simp only [reads_bind, reads_pure]
  constructor
  · rintro ⟨e, mid, h, hc, as', _, h', hf, rfl, rfl⟩
    exact ⟨e, mid, as', ⟨h, hc⟩, ⟨h', hf⟩, rfl⟩
  · rintro ⟨e, mid, as', ⟨h, hc⟩, ⟨h', hf⟩, rfl⟩
    exact ⟨e, mid, h, hc, as', rest, h', hf, rfl, rfl⟩

theorem reads_further_colon :
    Reads (parseFurther ending opened last (⟨.delimiter ':', p⟩ :: ts)) as rest ↔
      ∃ a b mid, last = .reference a ∧ Reads (parseChain ending .sum ts) (.reference b) mid ∧
        Reads (parseFurther ending opened (.range a b) mid) as rest := by
  rw [parseFurther]
  simp only [reads_bind]
  constructor
  · rintro ⟨e, mid, h, hc, hx⟩
    split at hx
    · rename_i a b
      obtain ⟨as', rest', h', hf, hp⟩ := reads_bind.1 hx
      obtain ⟨rfl, rfl⟩ := reads_pure.1 hp
      exact ⟨a, b, mid, rfl, ⟨h, hc⟩, h', hf⟩
    · exact absurd hx not_reads_throw
  · rintro ⟨a, b, mid, rfl, ⟨h, hc⟩, h', hf⟩
    exact ⟨_, mid, h, hc, reads_bind.2 ⟨as, rest, h', hf, reads_pure.2 ⟨rfl, rfl⟩⟩⟩

theorem parseFurther_unclosed (hclose : ¬LedBy (.delimiter ')') ts)
    (hcomma : ¬LedBy (.delimiter ',') ts) (hcolon : ¬LedBy (.delimiter ':') ts) :
    parseFurther ending opened last ts = .error (.unclosedParenthesis opened) := by
  rw [parseFurther]
  · rfl
  · exact fun p ts' hts => hclose ⟨p, ts', hts⟩
  · exact fun p ts' hts => hcomma ⟨p, ts', hts⟩
  · exact fun p ts' hts => hcolon ⟨p, ts', hts⟩

theorem not_reads_further (hclose : ¬LedBy (.delimiter ')') ts)
    (hcomma : ¬LedBy (.delimiter ',') ts) (hcolon : ¬LedBy (.delimiter ':') ts) :
    ¬Reads (parseFurther ending opened last ts) as rest := by
  rw [parseFurther_unclosed hclose hcomma hcolon]
  exact not_reads_throw

end CellFormula.Expr
