import CellFormula.Expr.Printer
import CellFormula.Proofs.Expr.Legible
import CellFormula.Proofs.Token.Cuts
/-!
# The tokens of printed trees

`Expr.kinds` is what the text of a legible tree falls into. A legible tree whose signs are single is
derived by these tokens: a binary operation has its parentheses, so it is an atom, and all that can
stand in front of an atom is one sign.
-/

namespace CellFormula

open Grammar Number

namespace Expr

mutual

/-- The kinds of the tokens that a tree is printed with. -/
def kinds : Expr → List TokenKind
  | number n => [.number n]
  | text s => [.text s]
  | reference id => [.reference id]
  | range first last => [.reference first, .delimiter ':', .reference last]
  | unary .identity a => kinds a
  | unary .negate a => .operator '-' :: kinds a
  | binary op a b =>
    .delimiter '(' :: (kinds a ++ .operator op.symbol :: (kinds b ++ [.delimiter ')']))
  | call name as => .function name :: .delimiter '(' :: (kindsArguments as ++ [.delimiter ')'])

/-- The kinds of the tokens between the parentheses of a call. -/
def kindsArguments : List Expr → List TokenKind
  | [] => []
  | a :: as => kinds a ++ kindsFurther as

/-- The kinds of the tokens of further arguments, each behind a comma. -/
def kindsFurther : List Expr → List TokenKind
  | [] => []
  | a :: as => .delimiter ',' :: (kinds a ++ kindsFurther as)

end

end Expr

open CellFormula.Expr

/-! ## Cutting printed trees -/

section Cutting
variable {d : Dialect}

theorem printChars_number {n : Float} (hfin : n.isFinite = true) (hsign : isNegative n = false) :
    (Expr.number n).printChars = (shortest (index n)).positional := by
  have hlt := isFinite_iff.1 hfin
  have hnan : ¬infinity < index n := Nat.not_lt.2 (Nat.le_of_lt hlt)
  have hinf : index n ≠ infinity := Nat.ne_of_lt hlt
  simp [printChars, formatNumber, Style.write, formulaStyle, hnan, hinf, hsign]

theorem Cuts.printed_number {n : Float} {rest : List Char} {ks : List TokenKind}
    (h : (Expr.number n).legible d false = true) (hrest : EndsLeaf rest) (hks : Cuts d rest ks) :
    Cuts d ((Expr.number n).printChars ++ rest) (.number n :: ks) := by
  obtain ⟨hfin, hsign⟩ : n.isFinite = true ∧ isNegative n = false := by simpa [legible] using h
  obtain ⟨value, hs, hindex⟩ := spells_shortest (isFinite_iff.1 hfin)
  have hvalue : value.toFloat false = n := by
    rw [Decimal.toFloat, hindex, ← hsign, ofIndex_index]
  have hcut := hks.number hs (hindex ▸ isFinite_iff.1 hfin) hrest
  rwa [hvalue, ← printChars_number hfin hsign] at hcut

theorem Cuts.reference {id : String} {rest : List Char} {ks : List TokenKind}
    (h : d.isReferenceWord id = true) (hrest : EndsLeaf rest) (hks : Cuts d rest ks) :
    Cuts d (id.toList ++ rest) (.reference id :: ks) := by
  obtain ⟨hword, hname⟩ : isWord id = true ∧ d.isFunctionName id = false := by
    simpa [Dialect.isReferenceWord] using h
  have hkind : wordKind d id.toList = .reference id := by simp [wordKind, hname]
  rw [← hkind]
  exact hks.word (by simpa using hword) hrest

theorem Cuts.function {name : String} {rest : List Char} {ks : List TokenKind}
    (h : d.isFunctionWord name = true) (hrest : EndsLeaf rest) (hks : Cuts d rest ks) :
    Cuts d (name.toList ++ rest) (.function name :: ks) := by
  obtain ⟨hword, hname⟩ : isWord name = true ∧ d.isFunctionName name = true := by
    simpa [Dialect.isFunctionWord] using h
  have hkind : wordKind d name.toList = .function name := by simp [wordKind, hname]
  rw [← hkind]
  exact hks.word (by simpa using hword) hrest

theorem mem_symbols (op : BinaryOperator) : op.symbol ∈ ['+', '-', '*', '/', '^'] := by
  cases op <;> decide

theorem endsLeaf_further (as : List Expr) (rest : List Char) :
    EndsLeaf (printFurther as ++ ')' :: rest) := by
  cases as with
  | nil => exact endsLeaf_cons (by simp [leafEnds])
  | cons a as => exact endsLeaf_cons (by simp [leafEnds])

mutual

/-- The text of a legible tree falls into the tokens of the tree, whatever ends it. -/
theorem cuts_printChars (hd : d.Conventional) {argument : Bool} {rest : List Char}
    {ks : List TokenKind} : (e : Expr) → e.legible d argument = true → EndsLeaf rest →
      Cuts d rest ks → Cuts d (e.printChars ++ rest) (e.kinds ++ ks)
  | .number n => fun he hrest hks => hks.printed_number he hrest
  | .text s => fun _ hrest hks => by
    have h := hks.text s.toList hrest
    rwa [String.ofList_toList] at h
  | .reference id => fun he hrest hks => hks.reference he hrest
  | .range first last => by
    intro he hrest hks
    obtain ⟨⟨-, hfirst⟩, hlast⟩ :
      (argument = true ∧ d.isReferenceWord first = true) ∧ d.isReferenceWord last = true := by
        simpa [legible] using he
    rw [printChars, List.append_assoc, List.cons_append]
    exact ((hks.reference hlast hrest).delimiter hd (by simp)).reference hfirst
      (endsLeaf_cons (by simp [leafEnds]))
  | .unary .identity a => fun he => by cases he
  | .unary .negate a => by
    intro he hrest hks
    have ha : a.legible d false = true := he
    exact (cuts_printChars hd a ha hrest hks).operator hd (by simp)
  | .binary op a b => by
    intro he hrest hks
    obtain ⟨ha, hb⟩ : a.legible d false = true ∧ b.legible d false = true := by
      simpa [legible] using he
    -- The text is cut from its end on.
    have hclose := hks.delimiter hd (c := ')') (by simp)
    have hright := (cuts_printChars hd b hb (endsLeaf_cons (by simp [leafEnds])) hclose).space
    have hop := (hright.operator hd (mem_symbols op)).space
    have hleft := cuts_printChars hd a ha (endsLeaf_cons (by simp [leafEnds])) hop
    simpa [printChars, kinds] using hleft.delimiter hd (c := '(') (by simp)
  | .call name as => by
    intro he hrest hks
    obtain ⟨hname, has⟩ : d.isFunctionWord name = true ∧ legibleArguments d as = true := by
      simpa [legible] using he
    have hopen := (cuts_printArguments hd as has hks).delimiter hd (c := '(') (by simp)
    simpa [printChars, kinds] using hopen.function hname (endsLeaf_cons (by simp [leafEnds]))

theorem cuts_printArguments (hd : d.Conventional) {rest : List Char} {ks : List TokenKind} :
    (as : List Expr) → legibleArguments d as = true → Cuts d rest ks →
      Cuts d (printArguments as ++ ')' :: rest) (kindsArguments as ++ .delimiter ')' :: ks)
  | [] => fun _ hks => hks.delimiter hd (by simp)
  | a :: as => by
    intro has hks
    obtain ⟨ha, has⟩ : a.legible d true = true ∧ legibleArguments d as = true := by
      simpa [legibleArguments] using has
    have hfurther := cuts_printFurther hd as has hks
    simpa [printArguments, kindsArguments] using
      cuts_printChars hd a ha (endsLeaf_further as rest) hfurther

theorem cuts_printFurther (hd : d.Conventional) {rest : List Char} {ks : List TokenKind} :
    (as : List Expr) → legibleArguments d as = true → Cuts d rest ks →
      Cuts d (printFurther as ++ ')' :: rest) (kindsFurther as ++ .delimiter ')' :: ks)
  | [] => fun _ hks => hks.delimiter hd (by simp)
  | a :: as => by
    intro has hks
    obtain ⟨ha, has⟩ : a.legible d true = true ∧ legibleArguments d as = true := by
      simpa [legibleArguments] using has
    have hfurther := cuts_printFurther hd as has hks
    have hargument := (cuts_printChars hd a ha (endsLeaf_further as rest) hfurther).space
    simpa [printFurther, kindsFurther] using hargument.delimiter hd (c := ',') (by simp)

end

end Cutting

/-! ## Deriving printed trees -/

section Deriving
variable {ks us : List TokenKind} {a b e : Expr} {d : Dialect}

theorem Grammar.Unary.operand (h : Unary ks e) (level : Level) : Operand level ks e := by
  have hpower : Operand .power ks e := .unary h
  have hproduct : Operand .product ks e := .power (.operand hpower)
  cases level with
  | power => exact hpower
  | product => exact hproduct
  | sum => exact .product (.operand hproduct)

theorem Grammar.Unary.chain (h : Unary ks e) (level : Level) : Chain level ks e :=
  .operand (h.operand level)

/-- A chain of any level is an expression. -/
theorem Grammar.Chain.widen {level : Level} (h : Chain level ks e) : Chain .sum ks e := by
  have hproduct : ∀ {ks e}, Chain .product ks e → Chain .sum ks e := fun h => .operand (.product h)
  cases level with
  | sum => exact h
  | product => exact hproduct h
  | power => exact hproduct (.operand (.power h))

theorem chain_binary (op : BinaryOperator) (ha : Unary ks a) (hb : Unary us b) :
    Chain .sum (ks ++ .operator op.symbol :: us) (.binary op a b) :=
  (Chain.link (ha.chain op.level) rfl (hb.operand op.level)).widen

/-- What can stand among arguments: a range or an expression. -/
def IsArgument (a : Expr) : Prop :=
  (∃ first last, a = .range first last) ∨ Chain .sum a.kinds a

theorem chain_reference (id : String) : Chain .sum [.reference id] (.reference id) :=
  (Unary.atom (.reference id)).chain .sum

theorem IsArgument.first (h : IsArgument a) : Arguments a.kinds [a] := by
  rcases h with ⟨first, last, rfl⟩ | h
  · have hfirst : Arguments [.reference first] ([] ++ [.reference first]) :=
      .first (chain_reference first)
    exact .range hfirst (chain_reference last)
  · exact .first h

theorem IsArgument.further {before : List Expr} (h : IsArgument a) (hb : Arguments ks before) :
    Arguments (ks ++ .delimiter ',' :: a.kinds) (before ++ [a]) := by
  rcases h with ⟨first, last, rfl⟩ | h
  · have hrange := Arguments.range (.further hb (chain_reference first)) (chain_reference last)
    simpa [kinds] using hrange
  · exact .further hb h

theorem isRange_or_legible (h : a.legible d true = true) :
    (∃ first last, a = .range first last) ∨ a.legible d false = true := by
  cases a with
  | range first last => exact .inl ⟨first, last, rfl⟩
  | unary op a =>
    cases op with
    | identity => cases h
    | negate => exact .inr h
  | _ => exact .inr h

mutual

/-- A legible tree with single signs is derived by its tokens, as an atom if it has no sign. -/
theorem derives_kinds : (e : Expr) → e.legible d false = true → e.singleSigned = true →
    Unary e.kinds e ∧ (e.isNegation = false → Atom e.kinds e)
  | .number n => fun _ _ => ⟨.atom (.number n), fun _ => .number n⟩
  | .text s => fun _ _ => ⟨.atom (.text s), fun _ => .text s⟩
  | .reference id => fun _ _ => ⟨.atom (.reference id), fun _ => .reference id⟩
  | .range _ _ => fun he _ => by cases he
  | .unary .identity _ => fun he _ => by cases he
  | .unary .negate a => by
    intro he hs
    obtain ⟨hsign, hs⟩ : a.isNegation = false ∧ a.singleSigned = true := by
      simpa [singleSigned] using hs
    have ha : a.legible d false = true := he
    exact ⟨.negated ((derives_kinds a ha hs).2 hsign), fun h => by cases h⟩
  | .binary op a b => by
    intro he hs
    obtain ⟨ha, hb⟩ : a.legible d false = true ∧ b.legible d false = true := by
      simpa [legible] using he
    obtain ⟨hsa, hsb⟩ : a.singleSigned = true ∧ b.singleSigned = true := by
      simpa [singleSigned] using hs
    have hchain := chain_binary op (derives_kinds a ha hsa).1 (derives_kinds b hb hsb).1
    have hatom : Atom (Expr.binary op a b).kinds (.binary op a b) := by
      simpa [kinds] using Atom.parens hchain
    exact ⟨.atom hatom, fun _ => hatom⟩
  | .call name [] => fun _ _ => ⟨.atom (.emptyCall name), fun _ => .emptyCall name⟩
  | .call name (a :: as) => by
    intro he hs
    obtain ⟨-, ha, has⟩ : d.isFunctionWord name = true ∧ a.legible d true = true ∧
      legibleArguments d as = true := by simpa [legible, legibleArguments] using he
    obtain ⟨hsa, hsas⟩ : a.singleSigned = true ∧ singleSignedArguments as = true := by
      simpa [singleSigned, singleSignedArguments] using hs
    have hfirst : IsArgument a :=
      (isRange_or_legible ha).imp_right fun ha => (derives_kinds a ha hsa).1.chain .sum
    have hatom : Atom (Expr.call name (a :: as)).kinds (.call name (a :: as)) :=
      .call (derives_kindsFurther as has hsas hfirst.first)
    exact ⟨.atom hatom, fun _ => hatom⟩

theorem derives_kindsFurther : (as : List Expr) → legibleArguments d as = true →
    singleSignedArguments as = true → ∀ {ks : List TokenKind} {before : List Expr},
      Arguments ks before → Arguments (ks ++ kindsFurther as) (before ++ as)
  | [] => fun _ _ _ _ hb => by simpa [kindsFurther] using hb
  | a :: as => by
    intro has hs ks before hb
    obtain ⟨ha, has⟩ : a.legible d true = true ∧ legibleArguments d as = true := by
      simpa [legibleArguments] using has
    obtain ⟨hsa, hsas⟩ : a.singleSigned = true ∧ singleSignedArguments as = true := by
      simpa [singleSignedArguments] using hs
    have hargument : IsArgument a :=
      (isRange_or_legible ha).imp_right fun ha => (derives_kinds a ha hsa).1.chain .sum
    simpa [kindsFurther] using derives_kindsFurther as has hsas (hargument.further hb)

end

end Deriving

end CellFormula
