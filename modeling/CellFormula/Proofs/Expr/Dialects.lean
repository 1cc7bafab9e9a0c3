import CellFormula.Proofs.Expr.Grammar
import CellFormula.Proofs.Token.Cuts
/-!
# Formulas in other dialects

No derivation has an operator or delimiter besides those of the grammar. So a formula that some
dialect accepts is cut into the same tokens by every dialect that has the same function names and
knows the operators and delimiters of the grammar, whatever else it takes for one.
-/

namespace CellFormula

open Grammar CellFormula.Expr

/-! ## Tokens of derivations -/

/-- No operator or delimiter, or one that the grammar speaks of. -/
def TokenKind.isConventional : TokenKind → Bool
  | operator c => ['+', '-', '*', '/', '^'].contains c
  | delimiter c => ['(', ')', ',', ':'].contains c
  | _ => true

theorem isConventional_symbol (op : BinaryOperator) :
    (TokenKind.operator op.symbol).isConventional = true := by
  cases op <;> decide

mutual

theorem conventional_of_chain {level : Level} {ks : List TokenKind} {e : Expr} :
    Chain level ks e → ks.all TokenKind.isConventional = true
  | .operand h => conventional_of_operand h
  | @Chain.link _ _ _ op _ _ h _ h' => by
    simp [conventional_of_chain h, conventional_of_operand h', isConventional_symbol op]

theorem conventional_of_operand {level : Level} {ks : List TokenKind} {e : Expr} :
    Operand level ks e → ks.all TokenKind.isConventional = true
  | .product h => conventional_of_chain h
  | .power h => conventional_of_chain h
  | .unary h => conventional_of_unary h

theorem conventional_of_unary {ks : List TokenKind} {e : Expr} :
    Unary ks e → ks.all TokenKind.isConventional = true
  | .negated h => by simp [conventional_of_atom h, TokenKind.isConventional]
  | .atom h => conventional_of_atom h

theorem conventional_of_atom {ks : List TokenKind} {e : Expr} :
    Atom ks e → ks.all TokenKind.isConventional = true
  | .number _ | .text _ | .reference _ | .emptyCall _ => rfl
  | .parens h => by simp [conventional_of_chain h, TokenKind.isConventional]
  | .call h => by simp [conventional_of_arguments h, TokenKind.isConventional]

theorem conventional_of_arguments {ks : List TokenKind} {as : List Expr} :
    Arguments ks as → ks.all TokenKind.isConventional = true
  | .first h => conventional_of_chain h
  | .further h h' => by
    simp [conventional_of_arguments h, conventional_of_chain h', TokenKind.isConventional]
  | .range h h' => by
    simp [conventional_of_arguments h, conventional_of_chain h', TokenKind.isConventional]

end

/-! ## Cutting in two dialects -/

section Scanning
variable {d d' : Dialect} (hd : d'.Conventional) (hnames : d.functionNames = d'.functionNames)
include hd hnames

theorem scanToken_conventional {c : Char} {cs rest : List Char} {kind : TokenKind}
    (hkind : kind.isConventional = true) (h : scanToken d c cs = .ok (kind, rest)) :
    scanToken d' c cs = .ok (kind, rest) := by
  have hname : ∀ word, d'.isFunctionName word = d.isFunctionName word := by
    intro word
    simp only [Dialect.isFunctionName, hnames]
  have hword : ∀ word, wordKind d' word = wordKind d word := by
    intro word
    unfold wordKind
    rw [hname]
  unfold scanToken at h ⊢
  split
  · rename_i hdigit
    rwa [if_pos hdigit] at h
  rename_i hdigit
  rw [if_neg hdigit] at h
  split
  · rename_i hletter
    rwa [if_pos hletter, ← hword] at h
  rename_i hletter
  rw [if_neg hletter] at h
  split
  · rename_i hquote
    rwa [if_pos hquote] at h
  rename_i hquote
  rw [if_neg hquote] at h
  -- Here the classes decide, and what the first dialect has found is a symbol of the grammar.
  split at h
  · cases h
    rw [if_pos (hd.operators c (List.contains_iff_mem.1 hkind))]
  split at h
  · cases h
    obtain ⟨hop, hdel⟩ := hd.delimiters c (List.contains_iff_mem.1 hkind)
    rw [if_neg (by simp [hop]), if_pos hdel]
  · cases h

theorem next_conventional {s s' : Cursor} {t : Token} (ht : t.kind.isConventional = true)
    (h : s.next d = (.ok t, s')) : s.next d' = (.ok t, s') := by
  unfold Cursor.next at h ⊢
  dsimp only at h ⊢
  split
  · rename_i hrest
    rwa [hrest] at h
  · rename_i c cs hrest
    rw [hrest] at h
    dsimp only at h
    split at h
    · rename_i hscan
      cases h
      rw [scanToken_conventional hd hnames ht hscan]
    · cases h
    · cases h
    · cases h

theorem scanAll_conventional {s : Cursor} {p : Nat} (hend : (scanAll d s).ending = .ok p)
    (hks : ((scanAll d s).tokens.map Token.kind).all TokenKind.isConventional = true) :
    scanAll d' s = scanAll d s := by
  fun_induction scanAll d s with
  | case1 s x s' hnext => cases hend
  | case2 s t s' hnext ht =>
    obtain ⟨kind, q⟩ := t
    cases ht
    exact scanAll_end (next_conventional hd hnames rfl hnext)
  | case3 s t s' hnext ht run ih =>
    obtain ⟨hk, hks⟩ := Bool.and_eq_true_iff.1 hks
    rw [scanAll_token (next_conventional hd hnames hk hnext) ht, ih hend hks]

/-- What a dialect accepts is accepted, with the same tree, where the grammar's symbols are known. -/
theorem parse_conventional {text : String} {e : Expr} (h : parse d text = .ok e) :
    parse d' text = .ok e := by
  obtain ⟨⟨p, hend⟩, hchain⟩ := parse_eq_ok.1 h
  rw [parse_eq_ok, scanAll_conventional hd hnames hend (conventional_of_chain hchain)]
  exact ⟨⟨p, hend⟩, hchain⟩

end Scanning

/-- A dialect with the standard function names that takes the operators and delimiters of the grammar
for what they are accepts the standard formulas, with the same trees, and no others. Other characters
in its classes only change how a text is rejected. -/
theorem parse_eq_ok_iff_standard {d : Dialect} (hd : d.Conventional)
    (hnames : d.functionNames = Dialect.builtinNames) (text : String) :
    (∀ e, parse d text = .ok e ↔ parse .standard text = .ok e) ∧
    ((∃ x, parse d text = .error x) ↔ ∃ x, parse .standard text = .error x) := by
  have hiff : ∀ e, parse d text = .ok e ↔ parse .standard text = .ok e := fun e =>
    ⟨parse_conventional Dialect.standard_conventional hnames, parse_conventional hd hnames.symm⟩
  refine ⟨hiff, ?_⟩
  cases hp : parse d text with
  | ok e => simp [(hiff e).1 hp]
  | error x =>
    cases hs : parse .standard text with
    | ok e => cases hp.symm.trans ((hiff e).2 hs)
    | error y => simp

/-- All characters but the standard delimiters are operators, and all characters are delimiters. -/
def greedyDialect : Dialect where
  isOperator c := !(['(', ')', ',', ':'].contains c)
  isDelimiter _ := true
  functionNames := Dialect.builtinNames

theorem greedyDialect_conventional : greedyDialect.Conventional :=
  ⟨by simp [greedyDialect], by simp [greedyDialect]⟩

/-- The semicolon is no token of the standard dialect, but it is one here, and the grammar has no
place for it. -/
theorem parse_greedyDialect : greedyDialect.Conventional ∧
    greedyDialect.functionNames = Dialect.builtinNames ∧
    (∃ x, parse .standard "1;2" = .error x) ∧ ∃ x, parse greedyDialect "1;2" = .error x := by
  have herror : ∃ x, parse .standard "1;2" = .error x := by
    have hfails : (parse .standard "1;2").isOk = false := by decide +kernel
    cases hparse : parse .standard "1;2" with
    | ok e =>
      rw [hparse] at hfails
      cases hfails
    | error x => exact ⟨x, rfl⟩
  exact ⟨greedyDialect_conventional, rfl, herror,
    (parse_eq_ok_iff_standard greedyDialect_conventional rfl "1;2").2.2 herror⟩

end CellFormula
