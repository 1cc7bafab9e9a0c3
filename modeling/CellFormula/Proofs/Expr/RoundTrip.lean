import CellFormula.Proofs.Expr.Composition
/-!
# Printing and parsing back

A tree comes back from its text exactly if it is canonical: legible, with single signs. A tree that
the parser has built is legible, so it comes back unless it has a negation directly under a
negation. The printer writes that as two signs in a row, and `Place` follows the tokens far enough to
see that no formula has two signs where an operand starts.
-/

namespace CellFormula

open Grammar CellFormula.Expr

/-! ## Signs in a row -/

/-- Where a token stands: where an operand starts, behind the sign of one, or behind an operand. -/
inductive Place where
  | front
  | signed
  | behind
  deriving DecidableEq

namespace Place

/-- The place behind a token; a second sign stands nowhere. -/
def step : Place → TokenKind → Option Place
  | front, .operator c => some (if c = '-' then signed else front)
  | signed, .operator c => if c = '-' then none else some front
  | behind, .operator _ => some front
  | _, .delimiter c => some (if c = ')' then behind else front)
  | _, _ => some behind

/-- The place behind some tokens. -/
def walk (p : Place) (ks : List TokenKind) : Option Place :=
  ks.foldlM step p

variable {p q r : Place} {k : TokenKind} {ks us : List TokenKind}

theorem walk_cons : walk p (k :: ks) = some q ↔ ∃ r, p.step k = some r ∧ r.walk ks = some q := by
  simp [walk, List.foldlM_cons, Option.bind_eq_some_iff]

theorem walk_append : walk p (ks ++ us) = some q ↔
    ∃ r, walk p ks = some r ∧ r.walk us = some q := by
  simp [walk, List.foldlM_append, Option.bind_eq_some_iff]

end Place

open Place

mutual

theorem walk_chain {level : Level} {ks : List TokenKind} {e : Expr} :
    Chain level ks e → walk .front ks = some .behind
  | .operand h => walk_operand h
  | .link h _ h' =>
    walk_append.2 ⟨.behind, walk_chain h, walk_cons.2 ⟨.front, rfl, walk_operand h'⟩⟩

theorem walk_operand {level : Level} {ks : List TokenKind} {e : Expr} :
    Operand level ks e → walk .front ks = some .behind
  | .product h => walk_chain h
  | .power h => walk_chain h
  | .unary h => walk_unary h

theorem walk_unary {ks : List TokenKind} {e : Expr} : Unary ks e → walk .front ks = some .behind
  | .negated h => walk_cons.2 ⟨.signed, rfl, walk_atom h .signed⟩
  | .atom h => walk_atom h .front

theorem walk_atom {ks : List TokenKind} {e : Expr} :
    Atom ks e → ∀ p, walk p ks = some .behind
  | .number _ => fun p => by cases p <;> rfl
  | .text _ => fun p => by cases p <;> rfl
  | .reference _ => fun p => by cases p <;> rfl
  | .parens h => by
    intro p
    refine walk_cons.2 ⟨.front, by cases p <;> rfl, ?_⟩
    exact walk_append.2 ⟨.behind, walk_chain h, rfl⟩
  | .emptyCall _ => fun p => by cases p <;> rfl
  | .call h => by
    intro p
    refine walk_cons.2 ⟨.behind, by cases p <;> rfl, walk_cons.2 ⟨.front, rfl, ?_⟩⟩
    exact walk_append.2 ⟨.behind, walk_arguments h, rfl⟩

theorem walk_arguments {ks : List TokenKind} {as : List Expr} :
    Arguments ks as → walk .front ks = some .behind
  | .first h => walk_chain h
  | .further h h' =>
    walk_append.2 ⟨.behind, walk_arguments h, walk_cons.2 ⟨.front, rfl, walk_chain h'⟩⟩
  | .range h h' =>
    walk_append.2 ⟨.behind, walk_arguments h, walk_cons.2 ⟨.front, rfl, walk_chain h'⟩⟩

end

theorem eq_behind {p q : Place} {ks : List TokenKind} (h : walk p ks = some q)
    (hk : walk p ks = some .behind) : q = .behind :=
  Option.some.inj (h.symm.trans hk)

mutual

/-- Where the tokens of a printed tree can be walked from the start of an operand, its signs are
single, and it has none itself behind a sign. -/
theorem singleSigned_of_walk : (e : Expr) → ∀ p q, p ≠ .behind → walk p e.kinds = some q →
    e.singleSigned = true ∧ q = .behind ∧ (p = .signed → e.isNegation = false)
  | .number n => fun p _ _ h => ⟨rfl, eq_behind h (walk_atom (.number n) p), fun _ => rfl⟩
  | .text s => fun p _ _ h => ⟨rfl, eq_behind h (walk_atom (.text s) p), fun _ => rfl⟩
  | .reference id => fun p _ _ h => ⟨rfl, eq_behind h (walk_atom (.reference id) p), fun _ => rfl⟩
  | .range _ _ => fun p _ _ h => ⟨rfl, eq_behind h (by cases p <;> rfl), fun _ => rfl⟩
  | .unary .identity a => by
    intro p q hp h
    obtain ⟨hs, hq, -⟩ := singleSigned_of_walk a p q hp h
    exact ⟨hs, hq, fun _ => rfl⟩
  | .unary .negate a => by
    intro p q hp h
    obtain ⟨r, hstep, h⟩ := walk_cons.1 h
    cases p with
    | front =>
      cases hstep
      obtain ⟨hs, hq, hsign⟩ := singleSigned_of_walk a .signed q nofun h
      refine ⟨?_, hq, fun h => by cases h⟩
      simp [singleSigned, hs, hsign rfl]
    | signed =>
      -- A sign has no place behind a sign.
      cases hstep
    | behind => exact absurd rfl hp
  | .binary op a b => by
    intro p q hp h
    obtain ⟨r, hopen, h⟩ := walk_cons.1 h
    obtain rfl : r = .front := by cases p <;> cases hopen <;> rfl
    obtain ⟨r, hleft, h⟩ := walk_append.1 h
    obtain ⟨ha, rfl, -⟩ := singleSigned_of_walk a .front r nofun hleft
    obtain ⟨r, hop, h⟩ := walk_cons.1 h
    cases hop
    obtain ⟨r, hright, h⟩ := walk_append.1 h
    obtain ⟨hb, rfl, -⟩ := singleSigned_of_walk b .front r nofun hright
    refine ⟨?_, eq_behind h rfl, fun _ => rfl⟩
    simp [singleSigned, ha, hb]
  | .call name as => by
    intro p q hp h
    obtain ⟨r, hname, h⟩ := walk_cons.1 h
    obtain rfl : r = .behind := by cases p <;> cases hname <;> rfl
    obtain ⟨r, hopen, h⟩ := walk_cons.1 h
    cases hopen
    obtain ⟨r, has, h⟩ := walk_append.1 h
    -- The arguments may be empty, and then the place in front of the `)` is that behind the `(`.
    have hs := singleSigned_of_walkArguments as r has
    exact ⟨hs, eq_behind h (by cases r <;> rfl), fun _ => rfl⟩

theorem singleSigned_of_walkArguments : (as : List Expr) → ∀ q,
    walk .front (kindsArguments as) = some q → singleSignedArguments as = true
  | [] => fun _ _ => rfl
  | a :: as => by
    intro q h
    obtain ⟨r, ha, h⟩ := walk_append.1 h
    obtain ⟨hsa, rfl, -⟩ := singleSigned_of_walk a .front r nofun ha
    simp [singleSignedArguments, hsa, singleSigned_of_walkFurther as q h]

theorem singleSigned_of_walkFurther : (as : List Expr) → ∀ q,
    walk .behind (kindsFurther as) = some q → singleSignedArguments as = true
  | [] => fun _ _ => rfl
  | a :: as => by
    intro q h
    obtain ⟨r, hcomma, h⟩ := walk_cons.1 h
    cases hcomma
    obtain ⟨r, ha, h⟩ := walk_append.1 h
    obtain ⟨hsa, rfl, -⟩ := singleSigned_of_walk a .front r nofun ha
    simp [singleSignedArguments, hsa, singleSigned_of_walkFurther as q h]

end

/-! ## Whole formulas -/

section RoundTrip
variable {d : Dialect} {e e' : Expr}

theorem cuts_print (hd : d.Conventional) (h : e.legible d false = true) :
    Cuts d e.print.toList e.kinds := by
  have hcut := cuts_printChars hd e h endsLeaf_nil cuts_nil
  simpa [print] using hcut

/-- For a legible tree all that matters is that its signs are single: else its text denotes no tree
at all. -/
theorem parse_print_of_legible (hd : d.Conventional) (h : e.legible d false = true) :
    parse d e.print = .ok e' ↔ e.singleSigned = true ∧ e' = e := by
  rw [parse_of_cuts (cuts_print hd h)]
  constructor
  · intro hchain
    have hs := (singleSigned_of_walk e .front .behind nofun (walk_chain hchain)).1
    exact ⟨hs, hchain.unique ((derives_kinds e h hs).1.chain .sum)⟩
  · rintro ⟨hs, rfl⟩
    exact (derives_kinds e' h hs).1.chain .sum

end RoundTrip

namespace Expr

/-- Legible, with single signs. -/
structure Canonical (d : Dialect) (e : Expr) : Prop where
  legible : e.legible d false = true
  singleSigned : e.singleSigned = true

end Expr

/-- A tree comes back from its text exactly if it is canonical. -/
theorem parse_print_eq_self_iff {d : Dialect} (hd : d.Conventional) (e : Expr) :
    parse d e.print = .ok e ↔ e.Canonical d := by
  constructor
  · intro h
    have hl := legible_of_parse h
    exact ⟨hl, ((parse_print_of_legible hd hl).1 h).1⟩
  · rintro ⟨hl, hs⟩
    exact (parse_print_of_legible hd hl).2 ⟨hs, rfl⟩

theorem parse_print_sum : Dialect.standard.Conventional ∧
    parse .standard (call "SUM" [range "A_1" "B_2", unary .negate (number 2.5)]).print =
      .ok (call "SUM" [range "A_1" "B_2", unary .negate (number 2.5)]) :=
  ⟨Dialect.standard_conventional, (parse_print_eq_self_iff Dialect.standard_conventional _).2
    ⟨by decide +kernel, by decide +kernel⟩⟩

/-- A tree that the parser has built comes back from its text exactly if no negation in it is the
operand of a negation. -/
theorem parse_print_of_parse {text : String} {e : Expr} (h : parse .standard text = .ok e) :
    parse .standard e.print = .ok e ↔ e.singleSigned = true := by
  rw [parse_print_of_legible Dialect.standard_conventional (legible_of_parse h)]
  exact and_iff_left rfl

theorem parse_doubly_negated : parse .standard "-(-A_1)" =
    .ok (unary .negate (unary .negate (reference "A_1"))) := by
  have hprint : (unary .negate (reference "A_1")).print = "-A_1" := by decide +kernel
  have hnegated : parse .standard "-A_1" = .ok (unary .negate (reference "A_1")) :=
    hprint ▸ (parse_print_of_legible Dialect.standard_conventional (by decide +kernel)).2 ⟨rfl, rfl⟩
  simpa using parse_negated_parens Dialect.standard_conventional hnegated

theorem parse_print_doubly_negated : parse .standard "-(-A_1)" =
      .ok (unary .negate (unary .negate (reference "A_1"))) ∧
    (parse .standard (unary .negate (unary .negate (reference "A_1"))).print =
        .ok (unary .negate (unary .negate (reference "A_1"))) ↔
      (unary .negate (unary .negate (reference "A_1"))).singleSigned = true) :=
  ⟨parse_doubly_negated, parse_print_of_parse parse_doubly_negated⟩

/-- The text that a built tree prints to may denote no tree: two signs in a row are written for a
negated negation. -/
theorem not_parse_print_of_parse :
    ¬∀ text e, parse .standard text = .ok e → parse .standard e.print = .ok e := by
  intro h
  have hparse := h _ _ parse_doubly_negated
  have hs := ((parse_print_of_legible Dialect.standard_conventional
    (legible_of_parse parse_doubly_negated)).1 hparse).1
  exact absurd hs (by decide +kernel)

end CellFormula
