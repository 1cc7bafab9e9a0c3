import CellFormula.Cell.Range
import CellFormula.Expr.Basic
/-!
# The nodes of a tree

`nodes` lists the nodes of a tree in the order in which evaluation is done with them: first what
stands below a node, from left to right, and then the node. The ids that a tree names are read off
this list; `dependencies` names the cells of a range where `references` names its two corners.
-/

namespace CellFormula

/-- The cells of a range, and none at all if a corner is malformed. -/
def coveredIds (first last : String) : List String :=
  match expandRange first last with
  | .ok ids => ids
  | .error _ => []

namespace Expr

mutual

/-- The nodes of a tree; a node comes behind those below it. -/
def nodes : Expr → List Expr
  | number n => [number n]
  | text s => [text s]
  | reference id => [reference id]
  | range first last => [range first last]
  | unary op a => nodes a ++ [unary op a]
  | binary op a b => nodes a ++ nodes b ++ [binary op a b]
  | call name as => nodesList as ++ [call name as]

/-- The nodes of the arguments, one argument after another. -/
def nodesList : List Expr → List Expr
  | [] => []
  | a :: as => nodes a ++ nodesList as

end

/-- The trees right below a node, from left to right. -/
def operands : Expr → List Expr
  | number _ | text _ | reference _ | range _ _ => []
  | unary _ a => [a]
  | binary _ a b => [a, b]
  | call _ as => as

/-- The nodes below a node; the node itself comes last. -/
def innerNodes (e : Expr) : List Expr :=
  e.nodes.dropLast

/-- The ids that a node names by itself, where a range names what `cells` says. -/
def ownIds (cells : String → String → List String) : Expr → List String
  | reference id => [id]
  | range first last => cells first last
  | _ => []

/-- The ids named in a tree, from left to right, where a range names what `cells` says. -/
def idsWith (cells : String → String → List String) (e : Expr) : List String :=
  e.nodes.flatMap (ownIds cells)

/-- The ids of the references and of the cells of the ranges, from left to right. -/
def dependencies (e : Expr) : List String :=
  e.idsWith coveredIds

section Nodes
variable {a b t : Expr} {as : List Expr} {cells : String → String → List String}

theorem nodesList_eq (as : List Expr) : nodesList as = as.flatMap nodes := by
  induction as with
  | nil => rfl
  | cons a as ih => rw [nodesList, ih, List.flatMap_cons]

theorem mem_nodes_self (e : Expr) : e ∈ e.nodes := by
  cases e <;> simp [nodes]

theorem nodes_eq (e : Expr) : e.nodes = e.innerNodes ++ [e] := by
  cases e <;> simp [innerNodes, nodes]

theorem mem_nodes_iff : t ∈ a.nodes ↔ t ∈ a.innerNodes ∨ t = a := by
  rw [nodes_eq, List.mem_append, List.mem_singleton]

theorem innerNodes_eq (e : Expr) : e.innerNodes = e.operands.flatMap nodes := by
  cases e <;> simp [innerNodes, nodes, operands, nodesList_eq]

theorem mem_nodes_of_operand (ha : a ∈ b.operands) (h : t ∈ a.nodes) : t ∈ b.nodes := by
  rw [mem_nodes_iff, innerNodes_eq]
  exact .inl (List.mem_flatMap.2 ⟨a, ha, h⟩)

/-- Facts about trees are shown of a node when they are known of its operands. -/
@[elab_as_elim]
theorem induction {P : Expr → Prop} (step : ∀ e, (∀ a ∈ e.operands, P a) → P e) (e : Expr) : P e :=
  have leaf : ∀ e : Expr, e.operands = [] → P e := fun e h => step e (by simp [h])
  @Expr.rec P (fun as => ∀ a ∈ as, P a) (fun _ => leaf _ rfl) (fun _ => leaf _ rfl)
    (fun _ => leaf _ rfl) (fun _ _ => leaf _ rfl) (fun _ a ha => step _ (by simpa [operands] using ha))
    (fun _ a b ha hb => step _ (by simpa [operands] using ⟨ha, hb⟩))
    (fun _ as has => step _ has) (by simp) (fun _ _ ha has => List.forall_mem_cons.2 ⟨ha, has⟩) e

@[simp] theorem idsWith_number (n : Float) : (number n).idsWith cells = [] := rfl

@[simp] theorem idsWith_text (s : String) : (text s).idsWith cells = [] := rfl

@[simp] theorem idsWith_reference (id : String) : (reference id).idsWith cells = [id] := rfl

@[simp] theorem idsWith_range (first last : String) :
    (range first last).idsWith cells = cells first last := by
  simp [idsWith, nodes, ownIds]

@[simp] theorem idsWith_unary (op : UnaryOperator) :
    (unary op a).idsWith cells = a.idsWith cells := by
  simp [idsWith, nodes, ownIds]

@[simp] theorem idsWith_binary (op : BinaryOperator) :
    (binary op a b).idsWith cells = a.idsWith cells ++ b.idsWith cells := by
  simp [idsWith, nodes, ownIds]

@[simp] theorem idsWith_call (name : String) :
    (call name as).idsWith cells = as.flatMap (idsWith cells) := by
  simp only [idsWith, nodes, nodesList_eq, List.flatMap_append, List.flatMap_assoc]
  simp [ownIds]
  rfl

end Nodes

mutual

/-- `references` names the same ids, but the two corners of each range. -/
theorem references_eq : (e : Expr) → e.references = e.idsWith fun first last => [first, last]
  | number _ | text _ | reference _ | range _ _ => by simp [references]
  | unary op a => by rw [references, references_eq a, idsWith_unary]
  | binary op a b => by rw [references, references_eq a, references_eq b, idsWith_binary]
  | call name as => by rw [references, referencesList_eq as, idsWith_call]

theorem referencesList_eq : (as : List Expr) →
    referencesList as = as.flatMap (idsWith fun first last => [first, last])
  | [] => rfl
  | a :: as => by rw [referencesList, references_eq a, referencesList_eq as, List.flatMap_cons]

end

end Expr

end CellFormula
