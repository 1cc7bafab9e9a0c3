import CellFormula.Proofs.Expr.Reading
import CellFormula.Proofs.Token.Run
/-!
# The grammar of formulas

The grammar is stated on the kinds of tokens, with a rule for each way to build a tree: chains of
one level grow to the right and so fold to the left, parentheses leave no node, and a `:` turns the
argument in front of it and the one behind it into a range. The parser accepts exactly the texts that
can be cut into tokens which derive a tree, with that tree, and no tokens derive two trees.
-/

namespace CellFormula

namespace Grammar

/-! ## Rules -/

mutual

/-- Operands of a level joined by its operators. -/
inductive Chain : Level → List TokenKind → Expr → Prop
  | operand {level ks e} : Operand level ks e → Chain level ks e
  | link {level ks left op us right} : Chain level ks left → op.level = level →
      Operand level us right → Chain level (ks ++ .operator op.symbol :: us) (.binary op left right)

/-- What the operators of a level join: chains of the next tighter level, or unary terms. -/
inductive Operand : Level → List TokenKind → Expr → Prop
  | product {ks e} : Chain .product ks e → Operand .sum ks e
  | power {ks e} : Chain .power ks e → Operand .product ks e
  | unary {ks e} : Unary ks e → Operand .power ks e

/-- An atom, or a `-` in front of one. No sign stands in front of another. -/
inductive Unary : List TokenKind → Expr → Prop
  | negated {ks e} : Atom ks e → Unary (.operator '-' :: ks) (.unary .negate e)
  | atom {ks e} : Atom ks e → Unary ks e

/-- A literal, a reference, a formula in parentheses, or a call. -/
inductive Atom : List TokenKind → Expr → Prop
  | number (n) : Atom [.number n] (.number n)
  | text (s) : Atom [.text s] (.text s)
  | reference (id) : Atom [.reference id] (.reference id)
  | parens {ks e} : Chain .sum ks e → Atom (.delimiter '(' :: (ks ++ [.delimiter ')'])) e
  | emptyCall (name) : Atom [.function name, .delimiter '(', .delimiter ')'] (.call name [])
  | call {name ks as} : Arguments ks as →
      Atom (.function name :: .delimiter '(' :: (ks ++ [.delimiter ')'])) (.call name as)

/-- The arguments of a call. A comma goes in front of a further one, and a `:` turns the last one and
what stands behind the `:` into a range, if both are references. -/
inductive Arguments : List TokenKind → List Expr → Prop
  | first {ks e} : Chain .sum ks e → Arguments ks [e]
  | further {ks as us e} : Arguments ks as → Chain .sum us e →
      Arguments (ks ++ .delimiter ',' :: us) (as ++ [e])
  | range {ks as a us b} : Arguments ks (as ++ [.reference a]) → Chain .sum us (.reference b) →
      Arguments (ks ++ .delimiter ':' :: us) (as ++ [.range a b])

end

theorem Arguments.exists_last {ks : List TokenKind} {as : List Expr} (h : Arguments ks as) :
    ∃ before last, as = before ++ [last] := by
  cases h with
  | first => exact ⟨[], _, rfl⟩
  | further => exact ⟨_, _, rfl⟩
  | range => exact ⟨_, _, rfl⟩

end Grammar

open Grammar CellFormula.Expr

theorem Level.operator?_eq_some {level : Level} {k : TokenKind} {op : BinaryOperator} :
    level.operator? k = some op ↔ k = .operator op.symbol ∧ op.level = level := by
  constructor
  · intro h
    cases k with
    | operator c =>
      obtain ⟨hs, hl⟩ := Option.filter_eq_some_iff.1 h
      exact ⟨by rw [BinaryOperator.ofSymbol?_eq_some hs], by simpa using hl⟩
    | _ => cases h
  · rintro ⟨rfl, rfl⟩
    simp [operator?, BinaryOperator.ofSymbol?_symbol]

/-! ## What is read is derived -/

section Sound
variable {ending : Except LexicalError Nat}

/-- The tokens taken off the front of `ts` are derived by `D`. -/
def Derived (D : List TokenKind → Prop) (ts rest : List Token) : Prop :=
  ∃ us, ts = us ++ rest ∧ D (us.map Token.kind)

theorem Derived.cons {D D' : List TokenKind → Prop} {ts rest : List Token} {k : TokenKind} {p : Nat}
    (h : Derived D ts rest) (hD : ∀ us, D us → D' (k :: us)) : Derived D' (⟨k, p⟩ :: ts) rest := by
  obtain ⟨us, rfl, hu⟩ := h
  exact ⟨⟨k, p⟩ :: us, rfl, hD _ hu⟩

theorem Derived.append {D D' E : List TokenKind → Prop} {ts mid rest : List Token}
    (h : Derived D ts mid) (h' : Derived D' mid rest) (hE : ∀ us vs, D us → D' vs → E (us ++ vs)) :
    Derived E ts rest := by
  obtain ⟨us, rfl, hu⟩ := h
  obtain ⟨vs, rfl, hv⟩ := h'
  exact ⟨us ++ vs, (List.append_assoc ..).symm, by simpa using hE _ _ hu hv⟩

theorem Derived.mono {D D' : List TokenKind → Prop} {ts rest : List Token} (h : Derived D ts rest)
    (hD : ∀ us, D us → D' us) : Derived D' ts rest := by
  obtain ⟨us, rfl, hu⟩ := h
  exact ⟨us, rfl, hD _ hu⟩

mutual

theorem chain_of_reads {level : Level} {ts rest : List Token} {e : Expr}
    (h : Reads (parseChain ending level ts) e rest) : Derived (Chain level · e) ts rest := by
  obtain ⟨first, mid, ho, hl⟩ := reads_chain.1 h
  have hlen := ho.1
  exact (operand_of_reads ho).append (links_of_reads hl) fun us vs hu hv => hv us (.operand hu)
termination_by 9 * ts.length + 2 * level.height + 1
decreasing_by all_goals omega

theorem links_of_reads {level : Level} {left : Expr} {ts rest : List Token} {e : Expr}
    (h : Reads (parseLinks ending level left ts) e rest) :
    Derived (fun us => ∀ ks, Chain level ks left → Chain level (ks ++ us) e) ts rest := by
  match ts, h with
  | [], h =>
    obtain ⟨-, rfl, rfl⟩ := reads_links_nil.1 h
    exact ⟨[], rfl, by simp⟩
  | t :: ts', h =>
    cases hop : level.operator? t.kind with
    | none =>
      obtain ⟨rfl, rfl⟩ := (reads_links_stop hop).1 h
      exact ⟨[], rfl, by simp⟩
    | some op =>
      obtain ⟨right, mid, ho, hl⟩ := (reads_links_step hop).1 h
      have hlen := ho.1
      obtain ⟨hk, hlevel⟩ := Level.operator?_eq_some.1 hop
      obtain ⟨k, p⟩ := t
      subst hk
      refine ((operand_of_reads ho).append (links_of_reads hl) (E := fun us => ∀ ks,
        Chain level ks left → Chain level (ks ++ .operator op.symbol :: us) e) ?_).cons fun _ h => h
      intro us vs hu hv ks hleft
      simpa using hv _ (.link hleft hlevel hu)
termination_by 9 * ts.length
decreasing_by
  all_goals
    have := level.height_le
    simp only [List.length_cons]
    omega

theorem operand_of_reads {level : Level} {ts rest : List Token} {e : Expr}
    (h : Reads (parseOperand ending level ts) e rest) : Derived (Operand level · e) ts rest := by
  rw [parseOperand.eq_def] at h
  cases level with
  | sum => exact (chain_of_reads h).mono fun _ => .product
  | product => exact (chain_of_reads h).mono fun _ => .power
  | power => exact (unary_of_reads h).mono fun _ => .unary
termination_by 9 * ts.length + 2 * level.height
decreasing_by all_goals (subst_vars; simp only [Level.height]; omega)

theorem unary_of_reads {ts rest : List Token} {e : Expr}
    (h : Reads (parseUnary ending ts) e rest) : Derived (Unary · e) ts rest := by
  by_cases hm : LedBy (.operator '-') ts
  · obtain ⟨p, ts', hts⟩ := hm
    have hlen : ts.length = ts'.length + 1 := by simp [hts]
    rw [hts] at h ⊢
    obtain ⟨a, ha, rfl⟩ := reads_unary_minus.1 h
    exact (atom_of_reads ha).cons fun _ => .negated
  · rw [parseUnary_of_not_minus hm] at h
    exact (atom_of_reads h).mono fun _ => .atom
termination_by 9 * ts.length + 1
decreasing_by all_goals omega

theorem atom_of_reads {ts rest : List Token} {e : Expr}
    (h : Reads (parseAtom ending ts) e rest) : Derived (Atom · e) ts rest := by
  obtain ⟨⟨k, p⟩, ts', hts, hs⟩ := reads_atom_head h
  have hlen : ts.length = ts'.length + 1 := by simp [hts]
  rw [hts] at h ⊢
  cases k with
  | number n =>
    obtain ⟨rfl, rfl⟩ := reads_atom_number.1 h
    exact ⟨[⟨.number n, p⟩], rfl, .number n⟩
  | text s =>
    obtain ⟨rfl, rfl⟩ := reads_atom_text.1 h
    exact ⟨[⟨.text s, p⟩], rfl, .text s⟩
  | reference id =>
    obtain ⟨rfl, rfl⟩ := reads_atom_reference.1 h
    exact ⟨[⟨.reference id, p⟩], rfl, .reference id⟩
  | function name =>
    by_cases ho : LedBy (.delimiter '(') ts'
    · obtain ⟨opened, ts'', hts'⟩ := ho
      have hlen' : ts'.length = ts''.length + 1 := by simp [hts']
      rw [hts'] at h ⊢
      obtain ⟨as, ha, rfl⟩ := reads_atom_call.1 h
      obtain ⟨p', us, rfl, hu⟩ := arguments_of_reads ha
      refine ⟨⟨.function name, p⟩ :: ⟨.delimiter '(', opened⟩ :: (us ++ [⟨.delimiter ')', p'⟩]),
        by simp, ?_⟩
      rcases hu with ⟨hnil, rfl⟩ | hu
      · rw [List.map_eq_nil_iff] at hnil
        subst hnil
        exact .emptyCall name
      · simpa using Atom.call hu
    · exact absurd h (not_reads_atom_function ho)
  | delimiter c =>
    obtain rfl : c = '(' := by
      unfold startsAtom at hs
      split at hs <;> simp_all
    obtain ⟨p', hc⟩ := reads_atom_parens.1 h
    obtain ⟨us, rfl, hu⟩ := chain_of_reads hc
    exact ⟨⟨.delimiter '(', p⟩ :: (us ++ [⟨.delimiter ')', p'⟩]), by simp, by simpa using Atom.parens hu⟩
  | operator c => cases hs
  | endOfInput => cases hs
termination_by 9 * ts.length
decreasing_by
  · omega
  · simp only [Level.height]
    omega

theorem arguments_of_reads {opened : Nat} {ts rest : List Token} {as : List Expr}
    (h : Reads (parseArguments ending opened ts) as rest) : ∃ p,
    Derived (fun us => us = [] ∧ as = [] ∨ Arguments us as) ts (⟨.delimiter ')', p⟩ :: rest) := by
  by_cases hc : LedBy (.delimiter ')') ts
  · obtain ⟨p, ts', rfl⟩ := hc
    obtain ⟨rfl, rfl⟩ := reads_arguments_close.1 h
    exact ⟨p, [], rfl, .inl ⟨rfl, rfl⟩⟩
  · obtain ⟨first, mid, hf, hm⟩ := (reads_arguments_first hc).1 h
    have hlen := hf.1
    obtain ⟨p, hm⟩ := further_of_reads hm
    refine ⟨p, (chain_of_reads hf).append hm fun us vs hu hv => .inr ?_⟩
    exact hv us [] (.first hu)
termination_by 9 * ts.length + 8
decreasing_by
  · omega
  · simp only [Level.height]
    omega

theorem further_of_reads {opened : Nat} {last : Expr} {ts rest : List Token} {as : List Expr}
    (h : Reads (parseFurther ending opened last ts) as rest) : ∃ p,
    Derived (fun us => ∀ ks before, Arguments ks (before ++ [last]) →
      Arguments (ks ++ us) (before ++ as)) ts (⟨.delimiter ')', p⟩ :: rest) := by
  by_cases hclose : LedBy (.delimiter ')') ts
  · obtain ⟨p, ts', rfl⟩ := hclose
    obtain ⟨rfl, rfl⟩ := reads_further_close.1 h
    exact ⟨p, [], rfl, by simp⟩
  by_cases hcomma : LedBy (.delimiter ',') ts
  · obtain ⟨p, ts', hts⟩ := hcomma
    have hlen : ts.length = ts'.length + 1 := by simp [hts]
    rw [hts] at h ⊢
    obtain ⟨e, mid, as', hc, hm, rfl⟩ := reads_further_comma.1 h
    have hlen' := hc.1
    obtain ⟨p', hm⟩ := further_of_reads hm
    refine ⟨p', ((chain_of_reads hc).append hm (E := fun us => ∀ ks before,
      Arguments ks (before ++ [last]) → Arguments (ks ++ .delimiter ',' :: us)
        (before ++ last :: as')) ?_).cons fun _ h => h⟩
    intro us vs hu hv ks before hb
    simpa using hv _ _ (.further hb hu)
  by_cases hcolon : LedBy (.delimiter ':') ts
  · obtain ⟨p, ts', hts⟩ := hcolon
    have hlen : ts.length = ts'.length + 1 := by simp [hts]
    rw [hts] at h ⊢
    obtain ⟨a, b, mid, rfl, hc, hm⟩ := reads_further_colon.1 h
    have hlen' := hc.1
    obtain ⟨p', hm⟩ := further_of_reads hm
    refine ⟨p', ((chain_of_reads hc).append hm (E := fun us => ∀ ks before,
      Arguments ks (before ++ [.reference a]) → Arguments (ks ++ .delimiter ':' :: us)
        (before ++ as)) ?_).cons fun _ h => h⟩
    intro us vs hu hv ks before hb
    simpa using hv _ _ (.range hb hu)
  exact absurd h (not_reads_further hclose hcomma hcolon)
termination_by 9 * ts.length
decreasing_by
  · omega
  · simp only [Level.height]
    omega
  · omega
  · simp only [Level.height]
    omega

end

end Sound

/-! ## What is derived is read -/

section Complete
variable {ending : Except LexicalError Nat}

/-- No operator of a tighter level stands in front, and no lexical error. -/
def Stops (ending : Except LexicalError Nat) (level : Level) : List Token → Prop
  | [] => ∃ p, ending = .ok p
  | t :: _ => ∀ op : BinaryOperator, t.kind = .operator op.symbol → level.height ≤ op.level.height

theorem Stops.mono {level level' : Level} {rest : List Token} (h : Stops ending level rest)
    (hle : level'.height ≤ level.height) : Stops ending level' rest := by
  cases rest with
  | nil => exact h
  | cons t ts => exact fun op hop => Nat.le_trans hle (h op hop)

/-- The links of a level end where an operand of a looser level does. -/
theorem Stops.reads_links {level level' : Level} {rest : List Token} (h : Stops ending level rest)
    (hlt : level'.height < level.height) (e : Expr) :
    Reads (parseLinks ending level' e rest) e rest := by
  cases rest with
  | nil => exact reads_links_nil.2 ⟨h, rfl, rfl⟩
  | cons t ts =>
    refine (reads_links_stop ?_).2 ⟨rfl, rfl⟩
    cases hop : level'.operator? t.kind with
    | none => rfl
    | some op =>
      obtain ⟨hk, rfl⟩ := Level.operator?_eq_some.1 hop
      exact absurd (h op hk) (Nat.not_le.2 hlt)

theorem stops_delimiter {level : Level} {c : Char} {p : Nat} {ts : List Token} :
    Stops ending level (⟨.delimiter c, p⟩ :: ts) := by
  intro op hop
  cases hop

theorem reads_links_delimiter {level : Level} {e : Expr} {c : Char} {p : Nat} {ts : List Token} :
    Reads (parseLinks ending level e (⟨.delimiter c, p⟩ :: ts)) e (⟨.delimiter c, p⟩ :: ts) :=
  (reads_links_stop rfl).2 ⟨rfl, rfl⟩

theorem stops_operator (op : BinaryOperator) (p : Nat) (ts : List Token) :
    Stops ending op.level (⟨.operator op.symbol, p⟩ :: ts) := by
  intro op' hop
  have hsymbol : op.symbol = op'.symbol := TokenKind.operator.inj hop
  have hop' := BinaryOperator.ofSymbol?_symbol op
  rw [hsymbol, BinaryOperator.ofSymbol?_symbol] at hop'
  cases hop'
  exact Nat.le_refl _

/-- Tokens of given kinds fall apart where the kinds do. -/
theorem map_kind_eq_append {ts : List Token} {ks us : List TokenKind} {k : TokenKind}
    (h : ts.map Token.kind = ks ++ k :: us) :
    ∃ ts₁ p ts₂, ts = ts₁ ++ ⟨k, p⟩ :: ts₂ ∧ ts₁.map Token.kind = ks ∧ ts₂.map Token.kind = us := by
  obtain ⟨ts₁, ts', rfl, h₁, h'⟩ := List.map_eq_append_iff.1 h
  obtain ⟨⟨k', p⟩, ts₂, rfl, rfl, h₂⟩ := List.map_eq_cons_iff.1 h'
  exact ⟨ts₁, p, ts₂, rfl, h₁, h₂⟩

theorem map_kind_eq_cons {ts : List Token} {us : List TokenKind} {k : TokenKind}
    (h : ts.map Token.kind = k :: us) :
    ∃ p ts', ts = ⟨k, p⟩ :: ts' ∧ ts'.map Token.kind = us := by
  obtain ⟨⟨k', p⟩, ts', rfl, rfl, h'⟩ := List.map_eq_cons_iff.1 h
  exact ⟨p, ts', rfl, h'⟩

theorem map_kind_eq_singleton {ts : List Token} {k : TokenKind} (h : ts.map Token.kind = [k]) :
    ∃ p, ts = [⟨k, p⟩] := by
  obtain ⟨p, ts', rfl, h'⟩ := map_kind_eq_cons h
  rw [List.map_eq_nil_iff.1 h']
  exact ⟨p, rfl⟩

mutual

theorem reads_of_chain {level : Level} {ks : List TokenKind} {e : Expr} :
    Chain level ks e → ∀ {ts rest rest' : List Token} {e' : Expr}, ts.map Token.kind = ks →
      Stops ending level rest → Reads (parseLinks ending level e rest) e' rest' →
      Reads (parseChain ending level (ts ++ rest)) e' rest'
  | .operand ho => fun hts hs hl => reads_chain.2 ⟨_, _, reads_of_operand ho hts hs, hl⟩
  | @Chain.link _ _ _ op _ _ hleft hlevel hright => by
    intro hts hs hl
    obtain ⟨ts₁, p, ts₂, rfl, h₁, h₂⟩ := map_kind_eq_append hts
    rw [List.append_assoc, List.cons_append]
    -- The operator is no tighter than the chain it prolongs, so the left part stops in front of it.
    refine reads_of_chain hleft h₁ (hlevel ▸ stops_operator op p _) ?_
    refine (reads_links_step (Level.operator?_eq_some.2 ⟨rfl, hlevel⟩)).2 ?_
    exact ⟨_, _, reads_of_operand hright h₂ hs, hl⟩

theorem reads_of_operand {level : Level} {ks : List TokenKind} {e : Expr} :
    Operand level ks e → ∀ {ts rest : List Token}, ts.map Token.kind = ks →
      Stops ending level rest → Reads (parseOperand ending level (ts ++ rest)) e rest
  | .product h => by
    intro hts hs
    rw [parseOperand]
    exact reads_of_chain h hts (hs.mono (by decide)) (hs.reads_links (by decide) e)
  | .power h => by
    intro hts hs
    rw [parseOperand]
    exact reads_of_chain h hts (hs.mono (by decide)) (hs.reads_links (by decide) e)
  | .unary h => by
    intro hts _
    rw [parseOperand]
    exact reads_of_unary h hts

theorem reads_of_unary {ks : List TokenKind} {e : Expr} :
    Unary ks e → ∀ {ts rest : List Token}, ts.map Token.kind = ks →
      Reads (parseUnary ending (ts ++ rest)) e rest
  | .negated h => by
    intro hts
    obtain ⟨p, ts', rfl, h'⟩ := map_kind_eq_cons hts
    exact reads_unary_minus.2 ⟨_, reads_of_atom h h', rfl⟩
  | .atom h => by
    intro hts
    rename_i ts rest
    have ha : Reads (parseAtom ending (ts ++ rest)) e rest := reads_of_atom h hts
    rw [parseUnary_of_not_minus]
    · exact ha
    · rintro ⟨p, us, hu⟩
      obtain ⟨t, us', hu', hs⟩ := reads_atom_head ha
      cases hu.symm.trans hu'
      cases hs

theorem reads_of_atom {ks : List TokenKind} {e : Expr} :
    Atom ks e → ∀ {ts rest : List Token}, ts.map Token.kind = ks →
      Reads (parseAtom ending (ts ++ rest)) e rest
  | .number n => by
    intro hts
    obtain ⟨p, rfl⟩ := map_kind_eq_singleton hts
    exact reads_atom_number.2 ⟨rfl, rfl⟩
  | .text s => by
    intro hts
    obtain ⟨p, rfl⟩ := map_kind_eq_singleton hts
    exact reads_atom_text.2 ⟨rfl, rfl⟩
  | .reference id => by
    intro hts
    obtain ⟨p, rfl⟩ := map_kind_eq_singleton hts
    exact reads_atom_reference.2 ⟨rfl, rfl⟩
  | .parens h => by
    intro hts
    obtain ⟨p, ts', rfl, h'⟩ := map_kind_eq_cons hts
    obtain ⟨ts₁, p', ts₂, rfl, h₁, h₂⟩ := map_kind_eq_append h'
    rw [List.map_eq_nil_iff.1 h₂, List.cons_append, List.append_assoc]
    exact reads_atom_parens.2
      ⟨p', reads_of_chain h h₁ stops_delimiter reads_links_delimiter⟩
  | .emptyCall name => by
    intro hts
    obtain ⟨p, ts', rfl, h'⟩ := map_kind_eq_cons hts
    obtain ⟨opened, ts'', rfl, h''⟩ := map_kind_eq_cons h'
    obtain ⟨p', rfl⟩ := map_kind_eq_singleton h''
    exact reads_atom_call.2 ⟨[], reads_arguments_close.2 ⟨rfl, rfl⟩, rfl⟩
  | .call h => by
    intro hts
    obtain ⟨p, ts', rfl, h'⟩ := map_kind_eq_cons hts
    obtain ⟨opened, ts'', rfl, h''⟩ := map_kind_eq_cons h'
    obtain ⟨ts₁, p', ts₂, rfl, h₁, h₂⟩ := map_kind_eq_append h''
    obtain ⟨before, last, has⟩ := h.exists_last
    rw [List.map_eq_nil_iff.1 h₂, List.cons_append, List.cons_append, List.append_assoc]
    refine reads_atom_call.2 ⟨_, ?_, rfl⟩
    rw [has]
    exact reads_of_arguments h has h₁ (reads_further_close.2 ⟨rfl, rfl⟩)

/-- The parser may still turn the last argument into a range. -/
theorem reads_of_arguments {ks : List TokenKind} {as : List Expr} :
    Arguments ks as → ∀ {before as' : List Expr} {last : Expr} {ts rest rest' : List Token}
      {opened : Nat} {c : Char} {p : Nat}, as = before ++ [last] → ts.map Token.kind = ks →
      Reads (parseFurther ending opened last (⟨.delimiter c, p⟩ :: rest)) as' rest' →
      Reads (parseArguments ending opened (ts ++ ⟨.delimiter c, p⟩ :: rest)) (before ++ as') rest'
  | @Arguments.first _ e h => by
    intro has hts hf
    obtain ⟨rfl, rfl⟩ := List.append_singleton_inj.1 (show [] ++ [e] = _ from has)
    rename_i ts rest _ _ c p
    have hc : Reads (parseChain ending .sum (ts ++ ⟨.delimiter c, p⟩ :: rest)) e _ :=
      reads_of_chain h hts stops_delimiter reads_links_delimiter
    refine (reads_arguments_first ?_).2 ⟨_, _, hc, hf⟩
    rintro ⟨p', us, hu⟩
    exact not_reads_chain_close (hu ▸ hc)
  | @Arguments.further _ _ _ e h h' => by
    intro has hts hf
    obtain ⟨rfl, rfl⟩ := List.append_singleton_inj.1 has
    obtain ⟨before, last, hb⟩ := h.exists_last
    obtain ⟨ts₁, p', ts₂, rfl, h₁, h₂⟩ := map_kind_eq_append hts
    rw [hb, List.append_assoc, List.append_assoc, List.cons_append]
    exact reads_of_arguments h hb h₁ (reads_further_comma.2
      ⟨_, _, _, reads_of_chain h' h₂ stops_delimiter reads_links_delimiter, hf, rfl⟩)
  | @Arguments.range _ as a _ b h h' => by
    intro has hts hf
    obtain ⟨rfl, rfl⟩ := List.append_singleton_inj.1 has
    obtain ⟨ts₁, p', ts₂, rfl, h₁, h₂⟩ := map_kind_eq_append hts
    rw [List.append_assoc, List.cons_append]
    exact reads_of_arguments h rfl h₁ (reads_further_colon.2
      ⟨a, b, _, rfl, reads_of_chain h' h₂ stops_delimiter reads_links_delimiter, hf⟩)

end

end Complete

/-! ## Whole formulas -/

theorem leading_isEnd {run : TokenRun} {rest : List Token} {t : Token}
    (hrun : ∀ t ∈ rest, t.kind ≠ .endOfInput) (h : leading run.ending rest = .ok t)
    (ht : t.isEnd = true) : rest = [] ∧ ∃ p, run.ending = .ok p := by
  cases rest with
  | nil =>
    cases hend : run.ending with
    | ok p => exact ⟨rfl, p, rfl⟩
    | error x => simp [leading, hend] at h
  | cons u us =>
    cases h
    exact absurd (by simpa [Token.isEnd] using ht) (hrun t List.mem_cons_self)

theorem ofTokens_eq_ok {run : TokenRun} (hrun : ∀ t ∈ run.tokens, t.kind ≠ .endOfInput) {e : Expr} :
    ofTokens run = .ok e ↔
      (∃ p, run.ending = .ok p) ∧ Chain .sum (run.tokens.map Token.kind) e := by
  constructor
  · intro h
    obtain ⟨⟨e', rest⟩, hc, h⟩ := bind_eq_ok.1 h
    obtain ⟨t, ht, h⟩ := bind_eq_ok.1 h
    split at h
    · rename_i hend
      cases h
      obtain ⟨us, hus, hchain⟩ := chain_of_reads ⟨rest.2, hc⟩
      have hrest : ∀ t ∈ rest.1, t.kind ≠ .endOfInput := fun t ht =>
        hrun t (hus ▸ List.mem_append_right us ht)
      obtain ⟨hnil, hp⟩ := leading_isEnd hrest ht hend
      rw [hnil, List.append_nil] at hus
      exact ⟨hp, hus ▸ hchain⟩
    · cases h
  · rintro ⟨⟨p, hp⟩, hchain⟩
    have hread : Reads (parseChain run.ending .sum (run.tokens ++ [])) e [] :=
      reads_of_chain hchain rfl ⟨p, hp⟩ (reads_links_nil.2 ⟨⟨p, hp⟩, rfl, rfl⟩)
    rw [List.append_nil] at hread
    obtain ⟨hlen, hc⟩ := hread
    refine bind_eq_ok.2 ⟨_, hc, bind_eq_ok.2 ⟨⟨.endOfInput, p⟩, ?_, rfl⟩⟩
    simp [leading, hp]

theorem parse_eq_ok {d : Dialect} {text : String} {e : Expr} :
    parse d text = .ok e ↔ (∃ p, (scanAll d (.start text)).ending = .ok p) ∧
      Chain .sum ((scanAll d (.start text)).tokens.map Token.kind) e :=
  ofTokens_eq_ok fun _ => kind_ne_endOfInput

/-- Tokens derive at most one tree. -/
theorem Grammar.Chain.unique {ks : List TokenKind} {e e' : Expr} (h : Chain .sum ks e)
    (h' : Chain .sum ks e') : e = e' := by
  have hts : (ks.map fun k => (⟨k, 0⟩ : Token)).map Token.kind = ks := by simp [Function.comp_def]
  have hend : ∃ p, (.ok 0 : Except LexicalError Nat) = .ok p := ⟨0, rfl⟩
  have hread : ∀ {a : Expr}, Chain .sum ks a → Reads (parseChain (.ok 0) .sum (_ ++ [])) a [] := fun h =>
    reads_of_chain h hts hend (reads_links_nil.2 ⟨hend, rfl, rfl⟩)
  exact ((hread h).unique (hread h')).1

/-- The parser accepts a text with a tree exactly if the text can be cut into tokens, up to its
end, and these derive the tree. So a text with a lexical error is never accepted, and no tokens
derive two trees. -/
theorem parse_eq_ok_iff_derives (d : Dialect) (text : String) :
    (∀ e, parse d text = .ok e ↔ ∃ ts p, tokenize d text = .ok (ts ++ [⟨.endOfInput, p⟩]) ∧
      Chain .sum (ts.map Token.kind) e) ∧
    (∀ x e, tokenize d text = .error x → parse d text ≠ .ok e) ∧
    (∀ ks e e', Chain .sum ks e → Chain .sum ks e' → e = e') := by
  refine ⟨fun e => ?_, fun x e hx he => ?_, fun ks e e' => Chain.unique⟩
  · rw [parse_eq_ok]
    constructor
    · rintro ⟨⟨p, hp⟩, hchain⟩
      exact ⟨_, p, tokenize_eq_ok.2 ⟨p, hp, rfl⟩, hchain⟩
    · rintro ⟨ts, p, hts, hchain⟩
      obtain ⟨p', hp, heq⟩ := tokenize_eq_ok.1 hts
      obtain ⟨rfl, -⟩ := List.append_inj' heq rfl
      exact ⟨⟨p', hp⟩, hchain⟩
  · obtain ⟨⟨p, hp⟩, -⟩ := parse_eq_ok.1 he
    cases hx.symm.trans (tokenize_eq_ok.2 ⟨p, hp, rfl⟩)

end CellFormula
