import CellFormula.Proofs.Expr.Grammar
/-!
# References of a formula text

The references of a tree are the reference tokens of its text, in the order and as often as they are
written. The grammar keeps them in place in every rule: a chain folds its operands without moving
them, and a `:` joins two references that stand next to each other among the arguments.
-/

namespace CellFormula

open Grammar CellFormula.Expr

/-- The id of a reference token. -/
def TokenKind.referenceId? : TokenKind → Option String
  | reference id => some id
  | _ => none

/-- The ids of the reference tokens, from left to right. -/
def referenceIds (ks : List TokenKind) : List String :=
  ks.filterMap TokenKind.referenceId?

section ReferenceIds
variable {ks us : List TokenKind}

@[simp] theorem referenceIds_nil : referenceIds [] = [] := rfl

@[simp] theorem referenceIds_append : referenceIds (ks ++ us) = referenceIds ks ++ referenceIds us :=
  List.filterMap_append

/-- Only reference tokens name a reference. -/
theorem referenceIds_cons {k : TokenKind} (h : k.referenceId? = none) :
    referenceIds (k :: ks) = referenceIds ks :=
  List.filterMap_cons_none h

theorem referencesList_append (as bs : List Expr) :
    referencesList (as ++ bs) = referencesList as ++ referencesList bs := by
  induction as with
  | nil => rfl
  | cons a as ih => rw [List.cons_append, referencesList, referencesList, ih, List.append_assoc]

end ReferenceIds

/-! ## Derived trees -/

mutual

theorem references_of_chain {level : Level} {ks : List TokenKind} {e : Expr} :
    Chain level ks e → e.references = referenceIds ks
  | .operand h => references_of_operand h
  | .link h _ h' => by
    rw [references, references_of_chain h, references_of_operand h', referenceIds_append,
      referenceIds_cons rfl]

theorem references_of_operand {level : Level} {ks : List TokenKind} {e : Expr} :
    Operand level ks e → e.references = referenceIds ks
  | .product h => references_of_chain h
  | .power h => references_of_chain h
  | .unary h => references_of_unary h

theorem references_of_unary {ks : List TokenKind} {e : Expr} :
    Unary ks e → e.references = referenceIds ks
  | .negated h => by rw [references, references_of_atom h, referenceIds_cons rfl]
  | .atom h => references_of_atom h

theorem references_of_atom {ks : List TokenKind} {e : Expr} :
    Atom ks e → e.references = referenceIds ks
  | .number _ | .text _ | .reference _ | .emptyCall _ => rfl
  | .parens h => by
    rw [references_of_chain h, referenceIds_cons rfl, referenceIds_append, referenceIds_cons rfl,
      referenceIds_nil, List.append_nil]
  | .call h => by
    rw [references, references_of_arguments h, referenceIds_cons rfl, referenceIds_cons rfl,
      referenceIds_append, referenceIds_cons rfl, referenceIds_nil, List.append_nil]

theorem references_of_arguments {ks : List TokenKind} {as : List Expr} :
    Arguments ks as → referencesList as = referenceIds ks
  | .first h => by
    rw [referencesList, referencesList, List.append_nil, references_of_chain h]
  | .further h h' => by
    rw [referencesList_append, references_of_arguments h, referenceIds_append, referenceIds_cons rfl,
      ← references_of_chain h', referencesList, referencesList, List.append_nil]
  | @Arguments.range _ as a us b h h' => by
    -- The two corners are the last reference in front of the `:` and the only one behind it.
    have hleft := references_of_arguments h
    have hright : [b] = referenceIds us := references_of_chain h'
    rw [referencesList_append] at hleft ⊢
    rw [referenceIds_append, referenceIds_cons rfl, ← hleft, ← hright]
    simp [referencesList, references]

end

/-- The references of the tree of a text are its reference tokens, in their order and as often as
they occur, also where two of them have become a range. -/
theorem references_eq_reference_tokens {d : Dialect} {text : String} {e : Expr}
    (h : parse d text = .ok e) :
    ∃ ts, tokenize d text = .ok ts ∧ e.references = referenceIds (ts.map Token.kind) := by
  obtain ⟨⟨p, hend⟩, hchain⟩ := parse_eq_ok.1 h
  refine ⟨_, tokenize_eq_ok.2 ⟨p, hend, rfl⟩, ?_⟩
  rw [references_of_chain hchain, List.map_append, referenceIds_append]
  exact (List.append_nil _).symm

theorem references_of_nested_ranges : ∃ e,
    parse .standard "SUM(B_1:A_2, -(C_3 + MAX(A_2)), A_2) * C_3" = .ok e ∧
      e.references = ["B_1", "A_2", "C_3", "A_2", "A_2", "C_3"] := by
  have hparses : (parse .standard "SUM(B_1:A_2, -(C_3 + MAX(A_2)), A_2) * C_3").isOk = true := by
    decide +kernel
  cases hparse : parse .standard "SUM(B_1:A_2, -(C_3 + MAX(A_2)), A_2) * C_3" with
  | error x =>
    rw [hparse] at hparses
    cases hparses
  | ok e =>
    obtain ⟨ts, hts, hreferences⟩ := references_eq_reference_tokens hparse
    have hids : (tokenize .standard "SUM(B_1:A_2, -(C_3 + MAX(A_2)), A_2) * C_3").toOption.map
        (fun ts => referenceIds (ts.map Token.kind)) =
          some ["B_1", "A_2", "C_3", "A_2", "A_2", "C_3"] := by
      decide +kernel
    rw [hts] at hids
    exact ⟨e, rfl, hreferences.trans (Option.some.inj hids)⟩

end CellFormula
