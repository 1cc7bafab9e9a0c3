import CellFormula.Proofs.Expr.Grammar
import CellFormula.Proofs.Token.Lexeme
/-!
# What formulas denote

`legible` singles out the trees that some formula text denotes, and `legible_of_parse` says that the
parser builds no others. A legible tree can still have a negation directly under a negation, which a
formula text writes with parentheses; `singleSigned` excludes that.
-/

namespace CellFormula

open Grammar

namespace Expr

/-! ## Legible trees -/

mutual

/-- Each leaf is the content of a token. No sign is an identity, and a range stands directly among
the arguments of a call, which `argument` is the flag for. -/
def legible (d : Dialect) (argument : Bool) : Expr → Bool
  | number n => n.isFinite && !Number.isNegative n
  | text _ => true
  | reference id => d.isReferenceWord id
  | range first last => argument && d.isReferenceWord first && d.isReferenceWord last
  | unary .identity _ => false
  | unary .negate a => legible d false a
  | binary _ a b => legible d false a && legible d false b
  | call name as => d.isFunctionWord name && legibleArguments d as

/-- All arguments are legible. Each of them may be a range. -/
def legibleArguments (d : Dialect) : List Expr → Bool
  | [] => true
  | a :: as => legible d true a && legibleArguments d as

end

/-- The tree is a negation. -/
def isNegation : Expr → Bool
  | unary .negate _ => true
  | _ => false

mutual

/-- No negation is the operand of a negation. -/
def singleSigned : Expr → Bool
  | number _ | text _ | reference _ | range _ _ => true
  | unary .identity a => singleSigned a
  | unary .negate a => !isNegation a && singleSigned a
  | binary _ a b => singleSigned a && singleSigned b
  | call _ as => singleSignedArguments as

/-- No negation in the arguments is the operand of a negation. -/
def singleSignedArguments : List Expr → Bool
  | [] => true
  | a :: as => singleSigned a && singleSignedArguments as

end

variable {d : Dialect} {e : Expr} {as bs : List Expr}

theorem legible_argument (h : e.legible d false = true) : e.legible d true = true := by
  cases e with
  | range => simp [legible] at h
  | unary op a =>
    cases op with
    | identity => cases h
    | negate => exact h
  | _ => exact h

theorem legibleArguments_append : legibleArguments d (as ++ bs) = true ↔
    legibleArguments d as = true ∧ legibleArguments d bs = true := by
  induction as with
  | nil => simp [legibleArguments]
  | cons a as ih => simp [legibleArguments, ih, and_assoc]

end Expr

/-! ## The parser builds legible trees -/

open CellFormula.Expr

section Image
variable {d : Dialect}

mutual

theorem legible_of_chain {level : Level} {ks : List TokenKind} {e : Expr} :
    Chain level ks e → (∀ k ∈ ks, k.wellFormed d = true) → e.legible d false = true
  | .operand h => legible_of_operand h
  | .link h _ h' => by
    intro hks
    have hleft := legible_of_chain h fun k hk => hks k (by simp [hk])
    have hright := legible_of_operand h' fun k hk => hks k (by simp [hk])
    simp [legible, hleft, hright]

theorem legible_of_operand {level : Level} {ks : List TokenKind} {e : Expr} :
    Operand level ks e → (∀ k ∈ ks, k.wellFormed d = true) → e.legible d false = true
  | .product h => legible_of_chain h
  | .power h => legible_of_chain h
  | .unary h => legible_of_unary h

theorem legible_of_unary {ks : List TokenKind} {e : Expr} :
    Unary ks e → (∀ k ∈ ks, k.wellFormed d = true) → e.legible d false = true
  | .negated h => by
    intro hks
    have ha := legible_of_atom h fun k hk => hks k (by simp [hk])
    simpa [legible] using ha
  | .atom h => legible_of_atom h

theorem legible_of_atom {ks : List TokenKind} {e : Expr} :
    Atom ks e → (∀ k ∈ ks, k.wellFormed d = true) → e.legible d false = true
  | .number n => fun hks => hks (.number n) List.mem_cons_self
  | .text _ => fun _ => rfl
  | .reference id => fun hks => hks (.reference id) List.mem_cons_self
  | .parens h => fun hks => legible_of_chain h fun k hk => hks k (by simp [hk])
  | .emptyCall name => by
    intro hks
    have hname : d.isFunctionWord name = true := hks (.function name) List.mem_cons_self
    simpa [legible, legibleArguments] using hname
  | @Atom.call name _ as h => by
    intro hks
    have hname : d.isFunctionWord name = true := hks (.function name) List.mem_cons_self
    have has := legible_of_arguments h fun k hk => hks k (by simp [hk])
    simp [legible, hname, has]

theorem legible_of_arguments {ks : List TokenKind} {as : List Expr} :
    Arguments ks as → (∀ k ∈ ks, k.wellFormed d = true) → legibleArguments d as = true
  | .first h => by
    intro hks
    simp [legibleArguments, legible_argument (legible_of_chain h hks)]
  | .further h h' => by
    intro hks
    have has := legible_of_arguments h fun k hk => hks k (by simp [hk])
    have he := legible_of_chain h' fun k hk => hks k (by simp [hk])
    simp [legibleArguments_append, legibleArguments, has, legible_argument he]
  | .range h h' => by
    intro hks
    have has := legible_of_arguments h fun k hk => hks k (by simp [hk])
    have hb := legible_of_chain h' fun k hk => hks k (by simp [hk])
    simp only [legibleArguments_append, legibleArguments, legible, Bool.and_true] at has hb ⊢
    simp [has, hb]

end

end Image

/-- Whatever the dialect, the parser builds only legible trees. -/
theorem legible_of_parse {d : Dialect} {text : String} {e : Expr} (h : parse d text = .ok e) :
    e.legible d false = true := by
  obtain ⟨-, hchain⟩ := parse_eq_ok.1 h
  refine legible_of_chain hchain fun k hk => ?_
  obtain ⟨t, ht, rfl⟩ := List.mem_map.1 hk
  exact wellFormed_of_mem ht

end CellFormula
