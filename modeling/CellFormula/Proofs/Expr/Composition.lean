import CellFormula.Proofs.Expr.Printed
/-!
# Formulas in formulas

An accepted text can stand in parentheses and among the arguments of a call: the `)` or `,` behind it
ends every token in front, so it falls into the same tokens as on its own, and there they derive the
same tree. `accepted_texts_compose` says what the whole text is read as.
-/

namespace CellFormula

open Grammar CellFormula.Expr

section Composition
variable {d : Dialect} {cs rest : List Char} {ks us : List TokenKind} {text text' name : String}
  {texts : List String} {e e' : Expr} {as trees : List Expr}

/-! ## Tokens of accepted texts -/

theorem parse_of_cuts (hc : Cuts d text.toList ks) :
    parse d text = .ok e ↔ Chain .sum ks e := by
  obtain ⟨hend, hks⟩ := hc 0
  rw [parse_eq_ok, Cursor.start, hks]
  exact and_iff_right hend

theorem exists_cuts_of_parse (h : parse d text = .ok e) :
    ∃ ks, Cuts d text.toList ks ∧ Chain .sum ks e := by
  obtain ⟨⟨p, hp⟩, hchain⟩ := parse_eq_ok.1 h
  exact ⟨_, cuts_of_scanAll hp, hchain⟩

/-! ## Parentheses -/

theorem Cuts.parens (hd : d.Conventional) (h : Cuts d cs ks) (hrest : Cuts d rest us) :
    Cuts d ('(' :: (cs ++ ')' :: rest)) (.delimiter '(' :: (ks ++ .delimiter ')' :: us)) :=
  (h.append (endsLeaf_cons (by simp [leafEnds])).endsToken
    (hrest.delimiter hd (by simp))).delimiter hd (by simp)

theorem parse_parens (hd : d.Conventional) (h : parse d text = .ok e) :
    parse d ("(" ++ text ++ ")") = .ok e := by
  obtain ⟨ks, hks, hchain⟩ := exists_cuts_of_parse h
  have hcuts := hks.parens hd cuts_nil
  rw [parse_of_cuts (by simpa using hcuts)]
  exact (Unary.atom (.parens hchain)).chain .sum

theorem parse_negated_parens (hd : d.Conventional) (h : parse d text = .ok e) :
    parse d ("-(" ++ text ++ ")") = .ok (.unary .negate e) := by
  obtain ⟨ks, hks, hchain⟩ := exists_cuts_of_parse h
  have hcuts := (hks.parens hd cuts_nil).operator hd (c := '-') (by simp)
  rw [parse_of_cuts (by simpa using hcuts)]
  exact (Unary.negated (.parens hchain)).chain .sum

theorem parse_binary_parens (hd : d.Conventional) (op : BinaryOperator) (h : parse d text = .ok e)
    (h' : parse d text' = .ok e') :
    parse d ("(" ++ text ++ ")" ++ op.symbol.toString ++ "(" ++ text' ++ ")") =
      .ok (.binary op e e') := by
  obtain ⟨ks, hks, hchain⟩ := exists_cuts_of_parse h
  obtain ⟨us, hus, hchain'⟩ := exists_cuts_of_parse h'
  -- The text is cut from its end on.
  have hright := (hus.parens hd cuts_nil).operator hd (mem_symbols op)
  have hcuts := hks.parens hd hright
  rw [parse_of_cuts (by simpa using hcuts)]
  have hbinary := chain_binary op (.atom (.parens hchain)) (.atom (.parens hchain'))
  simpa using hbinary

/-! ## Calls -/

theorem toList_intercalate_comma (text : String) (texts : List String) :
    (",".intercalate (text :: texts)).toList =
      text.toList ++ texts.flatMap fun text => ',' :: text.toList := by
  induction texts generalizing text with
  | nil => simp
  | cons next texts ih =>
    rw [String.intercalate_cons_cons]
    simp [ih]

/-- Further arguments can follow some others, each behind a comma. -/
theorem cuts_further (hd : d.Conventional)
    (h : List.Forall₂ (fun text e => parse d text = .ok e) texts trees) (hks : Cuts d cs ks)
    (has : Arguments ks as) :
    ∃ us, Cuts d (cs ++ texts.flatMap fun text => ',' :: text.toList) us ∧
      Arguments us (as ++ trees) := by
  induction h generalizing cs ks as with
  | nil => exact ⟨ks, by simpa using hks, by simpa using has⟩
  | cons h _ ih =>
    obtain ⟨us, hus, hchain⟩ := exists_cuts_of_parse h
    have hcomma := hks.append (endsLeaf_cons (by simp [leafEnds])).endsToken
      (hus.delimiter hd (c := ',') (by simp))
    obtain ⟨vs, hvs, hargs⟩ := ih hcomma (.further has hchain)
    exact ⟨vs, by simpa using hvs, by simpa using hargs⟩

/-- The text between the parentheses of a call, also if it is empty. -/
theorem exists_cuts_arguments (hd : d.Conventional) (name : String)
    (h : List.Forall₂ (fun text e => parse d text = .ok e) texts trees) :
    ∃ ks, Cuts d (",".intercalate texts).toList ks ∧
      Atom (.function name :: .delimiter '(' :: (ks ++ [.delimiter ')'])) (.call name trees) := by
  cases h with
  | nil => exact ⟨[], cuts_nil, .emptyCall name⟩
  | cons h htexts =>
    obtain ⟨ks, hks, hchain⟩ := exists_cuts_of_parse h
    obtain ⟨us, hus, hargs⟩ := cuts_further hd htexts hks (.first hchain)
    rw [toList_intercalate_comma]
    exact ⟨us, hus, .call hargs⟩

theorem parse_call (hd : d.Conventional) (hname : d.isFunctionWord name = true)
    (h : List.Forall₂ (fun text e => parse d text = .ok e) texts trees) :
    parse d (name ++ "(" ++ ",".intercalate texts ++ ")") = .ok (.call name trees) := by
  obtain ⟨ks, hks, hatom⟩ := exists_cuts_arguments hd name h
  have hcuts := (hks.parens hd cuts_nil).function hname (endsLeaf_cons (by simp [leafEnds]))
  rw [parse_of_cuts (by simpa using hcuts)]
  exact (Unary.atom hatom).chain .sum

end Composition

/-! ## Accepted texts -/

theorem isFunctionWord_of_mem_builtinNames {name : String} (h : name ∈ Dialect.builtinNames) :
    Dialect.standard.isFunctionWord name = true := by
  have hall : Dialect.builtinNames.all Dialect.standard.isFunctionWord = true := by decide +kernel
  exact List.all_eq_true.1 hall name h

/-- Accepted texts stay what they are in a larger one: in parentheses, also behind a sign or with an
operator between, and as the arguments of a call of a built-in function, of which there may be none. -/
theorem accepted_texts_compose :
    (∀ text e, parse .standard text = .ok e →
      parse .standard ("(" ++ text ++ ")") = .ok e ∧
      parse .standard ("-(" ++ text ++ ")") = .ok (.unary .negate e)) ∧
    (∀ op text text' e e', parse .standard text = .ok e → parse .standard text' = .ok e' →
      parse .standard ("(" ++ text ++ ")" ++ op.symbol.toString ++ "(" ++ text' ++ ")") =
        .ok (.binary op e e')) ∧
    (∀ name ∈ Dialect.builtinNames, ∀ texts trees,
      List.Forall₂ (fun text e => parse .standard text = .ok e) texts trees →
      parse .standard (name ++ "(" ++ ",".intercalate texts ++ ")") = .ok (.call name trees)) := by
  have hd := Dialect.standard_conventional
  refine ⟨fun text e h => ⟨parse_parens hd h, parse_negated_parens hd h⟩, ?_, ?_⟩
  · intro op text text' e e' h h'
    exact parse_binary_parens hd op h h'
  · intro name hname texts trees h
    exact parse_call hd (isFunctionWord_of_mem_builtinNames hname) h

/-- A text with blanks around it and one that is quoted and contains a comma and a parenthesis. -/
theorem compose_at_blanks_and_quotes :
    parse .standard " 2.-A_1 " = .ok (.binary .subtract (.number 2) (.reference "A_1")) ∧
    parse .standard "\"a,)\"" = .ok (.text "a,)") ∧
    parse .standard "-( 2.-A_1 )" =
      .ok (.unary .negate (.binary .subtract (.number 2) (.reference "A_1"))) ∧
    parse .standard "(\"a,)\")^( 2.-A_1 )" =
      .ok (.binary .power (.text "a,)") (.binary .subtract (.number 2) (.reference "A_1"))) ∧
    "MAX" ∈ Dialect.builtinNames ∧
    parse .standard "MAX( 2.-A_1 ,\"a,)\")" =
      .ok (.call "MAX" [.binary .subtract (.number 2) (.reference "A_1"), .text "a,)"]) := by
  have hfirst : parse .standard " 2.-A_1 " =
      .ok (.binary .subtract (.number 2) (.reference "A_1")) := by
    have hend : (scanAll .standard (.start " 2.-A_1 ")).ending = .ok 8 := by decide +kernel
    have hkinds : (scanAll .standard (.start " 2.-A_1 ")).tokens.map Token.kind =
      [.number 2, .operator '-', .reference "A_1"] := by decide +kernel
    rw [parse_eq_ok, hkinds]
    exact ⟨⟨8, hend⟩, chain_binary .subtract (.atom (.number 2)) (.atom (.reference "A_1"))⟩
  have hsecond : parse .standard "\"a,)\"" = .ok (.text "a,)") := by
    have hend : (scanAll .standard (.start "\"a,)\"")).ending = .ok 5 := by decide +kernel
    have hkinds : (scanAll .standard (.start "\"a,)\"")).tokens.map Token.kind =
      [.text "a,)"] := by decide +kernel
    rw [parse_eq_ok, hkinds]
    exact ⟨⟨5, hend⟩, (Unary.atom (.text "a,)")).chain .sum⟩
  obtain ⟨hparens, hbinary, hcall⟩ := accepted_texts_compose
  have hmax : "MAX" ∈ Dialect.builtinNames := by decide
  refine ⟨hfirst, hsecond, ?_, ?_, hmax, ?_⟩
  · simpa using (hparens _ _ hfirst).2
  · simpa [BinaryOperator.symbol] using hbinary .power _ _ _ _ hsecond hfirst
  · simpa using hcall "MAX" hmax _ _ (.cons hfirst (.cons hsecond .nil))

end CellFormula
