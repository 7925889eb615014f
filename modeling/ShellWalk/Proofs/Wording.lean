import ShellWalk.Proofs.Parts
import ShellWalk.Word

set_option autoImplicit false

namespace ShellWalk.Node

structure Wording (change : Node → Node) : Prop where
  text : ∀ node, (change node).text = node.text
  isVariableName : ∀ node, (change node).isVariableName = node.isVariableName
  phrase : ∀ kind source children, ∃ place : Source, place.text = source.text ∧
    change (.phrase kind source children) = .phrase kind place (children.map change)
  single : ∀ look node, (∀ kind source children, node ≠ .phrase kind source children) →
    (change node).expandWith look = node.expandWith look

namespace Wording

variable {change : Node → Node}

theorem expandWith (wording : Wording change) (look : String → String) (node : Node) :
    (change node).expandWith look = node.expandWith look := by
  induction node using Node.induction_beneath with
  | step whole ih =>
      cases whole with
      | phrase kind source children =>
          obtain ⟨place, same, changed⟩ := wording.phrase kind source children
          have joined : ∀ nodes : List Node, (∀ node ∈ nodes, node ∈ children) →
              expandJoin look (nodes.map change) = expandJoin look nodes := by
            intro nodes among
            induction nodes with
            | nil => rfl
            | cons node rest joined =>
                have first := ih node (beneath_part node _ (among node (List.mem_cons_self ..)))
                rw [List.map_cons, expandJoin, expandJoin, first,
                  joined fun other member => among other (List.mem_cons_of_mem _ member)]
          rw [changed]
          cases kind with
          | quoted => rw [Node.expandWith, Node.expandWith, same]
          | simpleExpansion =>
              cases children with
              | nil => rfl
              | cons name rest =>
                  rw [List.map_cons, Node.expandWith, Node.expandWith, wording.text]
          | expansion =>
              match children with
              | [] => rfl
              | [name] =>
                  rw [List.map_singleton, Node.expandWith, Node.expandWith,
                    wording.isVariableName, wording.text]
              | first :: second :: rest => rfl
          | concatenation =>
              rw [Node.expandWith, Node.expandWith, joined children fun _ member => member]
      | _ => exact wording.single look _ fun _ _ _ same => by cases same

theorem expand (wording : Wording change) (node : Node) (context : Context) :
    (change node).expand context = node.expand context :=
  wording.expandWith _ node

theorem expandSlot (wording : Wording change) (slot : Option Node) (context : Context) :
    Node.expandSlot (slot.map change) context = Node.expandSlot slot context := by
  cases slot with
  | none => rfl
  | some node => exact wording.expand node context

theorem expandAll (wording : Wording change) (nodes : List Node) (context : Context) :
    Node.expandAll (nodes.map change) context = Node.expandAll nodes context := by
  simp only [Node.expandAll, List.map_map, Function.comp_def, wording.expand]

end Wording

end ShellWalk.Node
