import CellFormula.Proofs.Expr.Reading
/-!
# Parsing in lockstep

The parser chooses by the kinds of tokens alone and takes positions only into its errors. So on two
lists of tokens with the same kinds it goes the same way, and it answers with the same tree or with two
errors from the same place. `Lockstep` says for each such place that the errors are related, and
`Lockstep.ofTokens` is what follows for whole runs.
-/

namespace CellFormula.Expr

/-! ## Related computations -/

/-- Both computations succeed with related answers, or they fail with related errors. -/
inductive Lifts (E : ParseError → ParseError → Prop) {α β : Type} (R : α → β → Prop) :
    Except ParseError α → Except ParseError β → Prop
  | ok {a b} : R a b → Lifts E R (.ok a) (.ok b)
  | error {x y} : E x y → Lifts E R (.error x) (.error y)

/-- The readers have the same answer and leave related tokens. -/
inductive SameRead (T : List Token → List Token → Prop) {α : Type} {P Q : List Token → Prop} :
    α × { ts : List Token // P ts } → α × { ts : List Token // Q ts } → Prop
  | mk {a ts us} (h : P ts) (h' : Q us) : T ts us → SameRead T (a, ⟨ts, h⟩) (a, ⟨us, h'⟩)

/-- The tokens have one kind, and the errors that name them as unexpected are related. -/
def BothUnexpected (E : ParseError → ParseError → Prop) (t u : Token) : Prop :=
  u.kind = t.kind ∧ E (.invalidExpression t.position t.kind.describe)
    (.invalidExpression u.position u.kind.describe)

/-- The tokens that are left of two runs are related by `T` and have the same kinds. Positions of open
parentheses are related by `O`, and from each place that has an error both runs have related ones. -/
structure Lockstep (ending ending' : Except LexicalError Nat) (T : List Token → List Token → Prop)
    (O : Nat → Nat → Prop) (E : ParseError → ParseError → Prop) : Prop where
  kinds {ts us} : T ts us → us.map Token.kind = ts.map Token.kind
  tail {t u ts us} : T (t :: ts) (u :: us) → T ts us
  opening {p q ts us} : T (⟨.delimiter '(', p⟩ :: ts) (⟨.delimiter '(', q⟩ :: us) → O p q
  unclosed {p q} : O p q → E (.unclosedParenthesis p) (.unclosedParenthesis q)
  unexpected {ts us} : T ts us →
    Lifts E (BothUnexpected E) (leading ending ts) (leading ending' us)
  noRange {p q ts us} : T (⟨.delimiter ':', p⟩ :: ts) (⟨.delimiter ':', q⟩ :: us) →
    E (.invalidRange p) (.invalidRange q)
  noParenthesis {name p q ts us} : T (⟨.function name, p⟩ :: ts) (⟨.function name, q⟩ :: us) →
    ¬LedBy (.delimiter '(') ts →
    Lifts E (fun t u => E (.missingParenthesis t.position name) (.missingParenthesis u.position name))
      (leading ending ts) (leading ending' us)

section Lifts
variable {E : ParseError → ParseError → Prop} {α β γ δ : Type} {R : α → β → Prop} {S : γ → δ → Prop}

theorem Lifts.bind {x : Except ParseError α} {y : Except ParseError β}
    {f : α → Except ParseError γ} {g : β → Except ParseError δ} (h : Lifts E R x y)
    (hfg : ∀ a b, R a b → Lifts E S (f a) (g b)) : Lifts E S (x >>= f) (y >>= g) := by
  cases h with
  | ok hab => exact hfg _ _ hab
  | error hxy => exact .error hxy

theorem Lifts.mono {R' : α → β → Prop} {x : Except ParseError α} {y : Except ParseError β}
    (h : Lifts E R x y) (hR : ∀ a b, R a b → R' a b) : Lifts E R' x y := by
  cases h with
  | ok hab => exact .ok (hR _ _ hab)
  | error hxy => exact .error hxy

end Lifts

/-! ## The parser -/

namespace Lockstep

variable {ending ending' : Except LexicalError Nat} {T : List Token → List Token → Prop}
  {O : Nat → Nat → Prop} {E : ParseError → ParseError → Prop} {ts us : List Token} {k : TokenKind}
  {p q : Nat}

theorem eq_nil (h : Lockstep ending ending' T O E) (hts : T [] us) : us = [] :=
  List.map_eq_nil_iff.1 (h.kinds hts)

theorem exists_cons (h : Lockstep ending ending' T O E) (hts : T (⟨k, p⟩ :: ts) us) :
    ∃ q us', us = ⟨k, q⟩ :: us' := by
  obtain ⟨⟨k', q⟩, us', rfl, hk, -⟩ := List.map_eq_cons_iff.1 (h.kinds hts)
  cases hk
  exact ⟨q, us', rfl⟩

theorem ledBy_iff (h : Lockstep ending ending' T O E) (hts : T ts us) : LedBy k us ↔ LedBy k ts := by
  constructor
  · rintro ⟨q, us', rfl⟩
    obtain ⟨⟨k', p⟩, ts', rfl, hk, -⟩ := List.map_eq_cons_iff.1 (h.kinds hts).symm
    cases hk
    exact ⟨p, ts', rfl⟩
  · rintro ⟨p, ts', rfl⟩
    exact h.exists_cons hts

theorem closing (h : Lockstep ending ending' T O E) (hts : T ts us) (hopened : O p q) :
    Lifts E (fun rest rest' => T rest.1 rest'.1) (readClosing p ts) (readClosing q us) := by
  by_cases hc : LedBy (.delimiter ')') ts
  · obtain ⟨r, ts', rfl⟩ := hc
    obtain ⟨r', us', rfl⟩ := h.exists_cons hts
    exact .ok (h.tail hts)
  · have hc' : ¬LedBy (.delimiter ')') us := mt (h.ledBy_iff hts).1 hc
    rw [readClosing, readClosing]
    · exact .error (h.unclosed hopened)
    · exact fun p us' hus => hc' ⟨p, us', hus⟩
    · exact fun p ts' hts => hc ⟨p, ts', hts⟩

theorem invalidAtom (h : Lockstep ending ending' T O E) (hts : T ts us)
    (hs : ∀ t ∈ ts.head?, startsAtom t.kind = false) :
    Lifts E (SameRead T) (parseAtom ending ts) (parseAtom ending' us) := by
  have hs' : ∀ u ∈ us.head?, startsAtom u.kind = false := by
    intro u hu
    have hhead : (us.map Token.kind).head? = some u.kind := by
      rw [List.head?_map, Option.mem_def.1 hu, Option.map_some]
    rw [h.kinds hts, List.head?_map] at hhead
    obtain ⟨t, ht, hkind⟩ := Option.map_eq_some_iff.1 hhead
    exact hkind ▸ hs t ht
  rw [parseAtom_of_not_startsAtom hs, parseAtom_of_not_startsAtom hs']
  exact (h.unexpected hts).bind fun t u htu => .error htu.2

mutual

theorem chain (h : Lockstep ending ending' T O E) (level : Level) {ts us : List Token} (hts : T ts us) :
    Lifts E (SameRead T) (parseChain ending level ts) (parseChain ending' level us) := by
  rw [parseChain, parseChain]
  refine (operand h level hts).bind ?_
  rintro _ _ @⟨first, rest, rest', hlen, _, hrest⟩
  refine (links h level first hrest).bind ?_
  rintro _ _ @⟨e, _, _, _, _, hlast⟩
  exact .ok (.mk _ _ hlast)
termination_by 9 * ts.length + 2 * level.height + 1
decreasing_by all_goals omega

theorem links (h : Lockstep ending ending' T O E) (level : Level) (left : Expr)
    {ts us : List Token} (hts : T ts us) :
    Lifts E (SameRead T) (parseLinks ending level left ts) (parseLinks ending' level left us) := by
  match ts with
  | [] =>
    obtain rfl := h.eq_nil hts
    rw [parseLinks, parseLinks]
    exact (h.unexpected hts).bind fun _ _ _ => .ok (.mk _ _ hts)
  | ⟨k, p⟩ :: ts' =>
    obtain ⟨q, us', rfl⟩ := h.exists_cons hts
    rw [parseLinks, parseLinks]
    cases hop : level.operator? k with
    | none => exact .ok (.mk _ _ hts)
    | some op =>
      refine (operand h level (h.tail hts)).bind ?_
      rintro _ _ @⟨right, rest, rest', hlen, _, hrest⟩
      refine (links h level (.binary op left right) hrest).bind ?_
      rintro _ _ @⟨e, _, _, _, _, hlast⟩
      exact .ok (.mk _ _ hlast)
termination_by 9 * ts.length
decreasing_by
  all_goals
    have := level.height_le
    simp only [List.length_cons]
    omega

theorem operand (h : Lockstep ending ending' T O E) (level : Level) {ts us : List Token} (hts : T ts us) :
    Lifts E (SameRead T) (parseOperand ending level ts) (parseOperand ending' level us) := by
  cases level with
  | sum =>
    rw [parseOperand, parseOperand]
    exact chain h .product hts
  | product =>
    rw [parseOperand, parseOperand]
    exact chain h .power hts
  | power =>
    rw [parseOperand, parseOperand]
    exact unary h hts
termination_by 9 * ts.length + 2 * level.height
decreasing_by all_goals (subst_vars; simp only [Level.height]; omega)

theorem unary (h : Lockstep ending ending' T O E) {ts us : List Token} (hts : T ts us) :
    Lifts E (SameRead T) (parseUnary ending ts) (parseUnary ending' us) := by
  by_cases hm : LedBy (.operator '-') ts
  · obtain ⟨p, ts', heq⟩ := hm
    have hlen : ts.length = ts'.length + 1 := by simp [heq]
    rw [heq] at hts ⊢
    obtain ⟨q, us', rfl⟩ := h.exists_cons hts
    rw [parseUnary, parseUnary]
    refine (atom h (h.tail hts)).bind ?_
    rintro _ _ @⟨e, _, _, _, _, hrest⟩
    exact .ok (.mk _ _ hrest)
  · rw [parseUnary_of_not_minus hm, parseUnary_of_not_minus (mt (h.ledBy_iff hts).1 hm)]
    exact atom h hts
termination_by 9 * ts.length + 1
decreasing_by all_goals omega

theorem atom (h : Lockstep ending ending' T O E) {ts us : List Token} (hts : T ts us) :
    Lifts E (SameRead T) (parseAtom ending ts) (parseAtom ending' us) := by
  match ts with
  | [] => exact h.invalidAtom hts nofun
  | ⟨k, p⟩ :: ts' =>
    obtain ⟨q, us', rfl⟩ := h.exists_cons hts
    cases k with
    | number n =>
      rw [parseAtom, parseAtom]
      exact .ok (.mk _ _ (h.tail hts))
    | text s =>
      rw [parseAtom, parseAtom]
      exact .ok (.mk _ _ (h.tail hts))
    | reference id =>
      rw [parseAtom, parseAtom]
      exact .ok (.mk _ _ (h.tail hts))
    | function name =>
      have hts' := h.tail hts
      by_cases ho : LedBy (.delimiter '(') ts'
      · obtain ⟨opened, ts'', heq⟩ := ho
        have hlen : ts'.length = ts''.length + 1 := by simp [heq]
        rw [heq] at hts' ⊢
        obtain ⟨opened', us'', rfl⟩ := h.exists_cons hts'
        rw [parseAtom, parseAtom]
        refine (arguments h (h.opening hts') (h.tail hts')).bind ?_
        rintro _ _ @⟨as, _, _, _, _, hrest⟩
        exact .ok (.mk _ _ hrest)
      · rw [parseAtom_function ho, parseAtom_function (mt (h.ledBy_iff hts').1 ho)]
        exact (h.noParenthesis hts ho).bind fun t u htu => .error htu
    | delimiter c =>
      by_cases hc : c = '('
      · subst hc
        rw [parseAtom, parseAtom]
        refine (chain h .sum (h.tail hts)).bind ?_
        rintro _ _ @⟨e, rest, rest', _, _, hrest⟩
        refine (h.closing hrest (h.opening hts)).bind ?_
        rintro ⟨_, _⟩ ⟨_, _⟩ hclosed
        exact .ok (.mk _ _ hclosed)
      · refine h.invalidAtom hts ?_
        rintro _ ⟨rfl⟩
        simp [startsAtom, hc]
    | operator c => exact h.invalidAtom hts (by rintro _ ⟨rfl⟩; rfl)
    | endOfInput => exact h.invalidAtom hts (by rintro _ ⟨rfl⟩; rfl)
termination_by 9 * ts.length
decreasing_by
  · simp only [List.length_cons]
    omega
  · simp only [List.length_cons, Level.height]
    omega

theorem arguments (h : Lockstep ending ending' T O E) {opened opened' : Nat}
    {ts us : List Token} (hopened : O opened opened') (hts : T ts us) :
    Lifts E (SameRead T) (parseArguments ending opened ts) (parseArguments ending' opened' us) := by
  by_cases hc : LedBy (.delimiter ')') ts
  · obtain ⟨p, ts', rfl⟩ := hc
    obtain ⟨q, us', rfl⟩ := h.exists_cons hts
    rw [parseArguments, parseArguments]
    exact .ok (.mk _ _ (h.tail hts))
  · have hc' : ¬LedBy (.delimiter ')') us := mt (h.ledBy_iff hts).1 hc
    rw [parseArguments, parseArguments]
    · refine (chain h .sum hts).bind ?_
      rintro _ _ @⟨first, rest, rest', hlen, _, hrest⟩
      refine (further h first hopened hrest).bind ?_
      rintro _ _ @⟨as, _, _, _, _, hlast⟩
      exact .ok (.mk _ _ hlast)
    · exact fun p us' hus => hc' ⟨p, us', hus⟩
    · exact fun p ts' hts => hc ⟨p, ts', hts⟩
termination_by 9 * ts.length + 8
decreasing_by
  · simp only [Level.height]
    omega
  · omega

theorem further (h : Lockstep ending ending' T O E) (last : Expr) {opened opened' : Nat}
    {ts us : List Token} (hopened : O opened opened') (hts : T ts us) : Lifts E (SameRead T)
      (parseFurther ending opened last ts) (parseFurther ending' opened' last us) := by
  by_cases hclose : LedBy (.delimiter ')') ts
  · obtain ⟨p, ts', rfl⟩ := hclose
    obtain ⟨q, us', rfl⟩ := h.exists_cons hts
    rw [parseFurther, parseFurther]
    exact .ok (.mk _ _ (h.tail hts))
  by_cases hcomma : LedBy (.delimiter ',') ts
  · obtain ⟨p, ts', heq⟩ := hcomma
    have hlen : ts.length = ts'.length + 1 := by simp [heq]
    rw [heq] at hts ⊢
    obtain ⟨q, us', rfl⟩ := h.exists_cons hts
    rw [parseFurther, parseFurther]
    refine (chain h .sum (h.tail hts)).bind ?_
    rintro _ _ @⟨e, rest, rest', hlen', _, hrest⟩
    refine (further h e hopened hrest).bind ?_
    rintro _ _ @⟨as, _, _, _, _, hlast⟩
    exact .ok (.mk _ _ hlast)
  by_cases hcolon : LedBy (.delimiter ':') ts
  · obtain ⟨p, ts', heq⟩ := hcolon
    have hlen : ts.length = ts'.length + 1 := by simp [heq]
    rw [heq] at hts ⊢
    obtain ⟨q, us', rfl⟩ := h.exists_cons hts
    rw [parseFurther, parseFurther]
    refine (chain h .sum (h.tail hts)).bind ?_
    rintro _ _ @⟨e, rest, rest', hlen', _, hrest⟩
    dsimp only
    split
    · rename_i a b
      refine (further h (.range a b) hopened hrest).bind ?_
      rintro _ _ @⟨as, _, _, _, _, hlast⟩
      exact .ok (.mk _ _ hlast)
    · exact .error (h.noRange hts)
  rw [parseFurther_unclosed hclose hcomma hcolon,
    parseFurther_unclosed (mt (h.ledBy_iff hts).1 hclose) (mt (h.ledBy_iff hts).1 hcomma)
      (mt (h.ledBy_iff hts).1 hcolon)]
  exact .error (h.unclosed hopened)
termination_by 9 * ts.length
decreasing_by
  · simp only [Level.height]
    omega
  · omega
  · simp only [Level.height]
    omega
  · omega

end

/-- Runs in lockstep have the same tree, or related errors. -/
theorem ofTokens (h : Lockstep ending ending' T O E) (hts : T ts us) :
    Lifts E (fun e e' => e' = e) (ofTokens ⟨ts, ending⟩) (ofTokens ⟨us, ending'⟩) := by
  refine (h.chain .sum hts).bind ?_
  rintro _ _ @⟨e, rest, rest', _, _, hrest⟩
  refine (h.unexpected hrest).bind ?_
  rintro t u ⟨hkind, herror⟩
  have hend : u.isEnd = t.isEnd := by rw [Token.isEnd, Token.isEnd, hkind]
  rw [hend]
  split
  · exact .ok rfl
  · exact .error herror

end Lockstep

end CellFormula.Expr
