/-!
# Quoted text

A quoted text stands between two double quotes, and a quote inside it is written twice. `read?`
takes a quoted text off the front of its input, and `read?_written` says that it undoes writing.
-/

namespace CellFormula.Text.Quoted

/-- Writes every quote twice. -/
def double : List Char → List Char
  | [] => []
  | c :: cs => if c = '"' then '"' :: '"' :: double cs else c :: double cs

/-- The text between two quotes. -/
def write (cs : List Char) : List Char :=
  '"' :: (double cs ++ ['"'])

/-- Reads up to the closing quote and gives the text and what follows; `none` if nothing closes it.
The opening quote has been taken off. -/
def read? : List Char → Option (List Char × List Char)
  | [] => none
  | '"' :: '"' :: cs => (read? cs).map fun (text, rest) => ('"' :: text, rest)
  | c :: cs =>
    if c = '"' then some ([], cs) else (read? cs).map fun (text, rest) => (c :: text, rest)

theorem read?_written (cs rest : List Char) (h : rest.head? ≠ some '"') :
    read? (double cs ++ '"' :: rest) = some (cs, rest) := by
  induction cs with
  | nil =>
    cases rest with
    | nil => rfl
    | cons c r =>
      have hc : c ≠ '"' := by simpa using h
      simp [double, read?, hc]
  | cons c cs ih => by_cases hc : c = '"' <;> simp [double, read?, hc, ih]

theorem eq_written_of_read? {cs text rest : List Char} (h : read? cs = some (text, rest)) :
    cs = double text ++ '"' :: rest := by
  fun_induction read? cs generalizing text with
  | case1 => simp at h
  | case2 cs ih =>
    obtain ⟨⟨t, r⟩, hr, he⟩ := Option.map_eq_some_iff.1 h
    obtain ⟨rfl, rfl⟩ := Prod.mk.inj he
    simp [double, ih hr]
  | case3 cs h' => simp_all [double]
  | case4 c cs h' hc ih =>
    obtain ⟨⟨t, r⟩, hr, he⟩ := Option.map_eq_some_iff.1 h
    obtain ⟨rfl, rfl⟩ := Prod.mk.inj he
    simp [double, hc, ih hr]

theorem length_rest_lt {cs text rest : List Char} (h : read? cs = some (text, rest)) :
    rest.length < cs.length := by
  rw [eq_written_of_read? h, List.length_append, List.length_cons]
  omega

end CellFormula.Text.Quoted
