import CellFormula.Token.Stream
/-!
# Runs of tokens

What `scanAll` answers, one step at a time.
-/

namespace CellFormula

theorem kind_ne_endOfInput {d : Dialect} {s : Cursor} {t : Token} (h : t ∈ (scanAll d s).tokens) :
    t.kind ≠ .endOfInput := by
  fun_induction scanAll d s with
  | case1 => cases h
  | case2 => cases h
  | case3 s t' s' hnext ht run ih =>
    rcases List.mem_cons.1 h with rfl | h
    · exact ht
    · exact ih h

theorem scanAll_token {d : Dialect} {s s' : Cursor} {t : Token} (h : s.next d = (.ok t, s'))
    (ht : t.kind ≠ .endOfInput) :
    scanAll d s = ⟨t :: (scanAll d s').tokens, (scanAll d s').ending⟩ := by
  rw [scanAll]
  split
  · rename_i h'
    cases h.symm.trans h'
  · rename_i h'
    cases h.symm.trans h'
    rw [dif_neg ht]

theorem scanAll_end {d : Dialect} {s s' : Cursor} {p : Nat}
    (h : s.next d = (.ok ⟨.endOfInput, p⟩, s')) : scanAll d s = ⟨[], .ok p⟩ := by
  rw [scanAll]
  split
  · rename_i h'
    cases h.symm.trans h'
  · rename_i h'
    cases h.symm.trans h'
    rfl

theorem scanAll_error {d : Dialect} {s s' : Cursor} {x : LexicalError}
    (h : s.next d = (.error x, s')) : scanAll d s = ⟨[], .error x⟩ := by
  rw [scanAll]
  split
  · rename_i h'
    cases h.symm.trans h'
    rfl
  · rename_i h'
    cases h.symm.trans h'

theorem scanAll_congr {d : Dialect} {s u : Cursor} (h : s.next d = u.next d) :
    scanAll d s = scanAll d u := by
  obtain ⟨⟨result, s'⟩, hs⟩ : ∃ answer, s.next d = answer := ⟨_, rfl⟩
  rw [hs] at h
  cases result with
  | error x => rw [scanAll_error hs, scanAll_error h.symm]
  | ok t =>
    by_cases ht : t.kind = .endOfInput
    · obtain ⟨kind, p⟩ := t
      cases ht
      rw [scanAll_end hs, scanAll_end h.symm]
    · rw [scanAll_token hs ht, scanAll_token h.symm ht]

theorem tokenize_eq_ok {d : Dialect} {text : String} {ts : List Token} :
    tokenize d text = .ok ts ↔ ∃ p, (scanAll d (.start text)).ending = .ok p ∧
      ts = (scanAll d (.start text)).tokens ++ [⟨.endOfInput, p⟩] := by
  unfold tokenize
  cases hend : (scanAll d (.start text)).ending with
  | ok p => simp [hend, Except.map, eq_comm]
  | error x => simp [hend, Except.map]

end CellFormula
