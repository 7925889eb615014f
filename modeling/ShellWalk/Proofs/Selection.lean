import Mathlib.Data.List.Find
import ShellWalk.Proofs.Unfolding

set_option autoImplicit false

namespace ShellWalk

namespace Node

-- What a pattern stands for: its source text when its kind has no meaning here, and otherwise its
-- expansion.
inductive Denotes (context : Context) : Node → String → Prop where
  | verbatim (kind : String) (source : Source) (children : List Node) :
      Denotes context (.other kind source children) source.text
  | expanded (node : Node) (modelled : ∀ kind source children, node ≠ .other kind source children) :
      Denotes context node (node.expand context)

def Takes (context : Context) (subject : String) (item : Node) : Prop :=
  ∃ pattern ∈ item.itemPatterns, pattern.Denotes context "*" ∨ pattern.Denotes context subject

-- Items left out of a list: those that cannot be taken, and behind the first that can be, any.
inductive Prunes (takes : Node → Prop) : List Node → List Node → Prop where
  | none : Prunes takes [] []
  | keep (item : Node) (rest kept : List Node) (later : Prunes takes rest kept) :
      Prunes takes (item :: rest) (item :: kept)
  | drop (item : Node) (rest kept : List Node) (dead : ¬ takes item)
      (later : Prunes takes rest kept) : Prunes takes (item :: rest) kept
  | cut (item : Node) (rest kept : List Node) (taken : takes item) (fewer : kept.Sublist rest) :
      Prunes takes (item :: rest) (item :: kept)

theorem denotes_iff (context : Context) (node : Node) (text : String) :
    node.Denotes context text ↔ node.pattern context = text := by
  constructor
  · rintro (⟨kind, source, children⟩ | ⟨_, modelled⟩)
    · rfl
    · cases node with
      | other kind source children => exact absurd rfl (modelled kind source children)
      | _ => rfl
  · rintro rfl
    cases node with
    | other kind source children => exact .verbatim kind source children
    | _ => exact .expanded _ fun _ _ _ same => by cases same

instance (context : Context) (node : Node) (text : String) :
    Decidable (node.Denotes context text) :=
  decidable_of_iff _ (denotes_iff context node text).symm

instance (context : Context) (subject : String) : DecidablePred (Takes context subject) :=
  fun item => inferInstanceAs (Decidable (∃ pattern ∈ item.itemPatterns, _))

theorem takes_caseItem (context : Context) (subject : String) (source : Source)
    (patterns children : List Node) : Takes context subject (.caseItem source patterns children) ↔
      (Walk.Arm.mk patterns []).accepts subject context = true := by
  simp only [Takes, itemPatterns, denotes_iff, Walk.Arm.accepts, List.any_eq_true, patternMatches,
    Bool.or_eq_true, decide_eq_true_eq]

theorem takes_isItem (item : Node) (context : Context) (subject : String)
    (takes : Takes context subject item) :
    ∃ source patterns children, item = .caseItem source patterns children := by
  obtain ⟨pattern, member, _⟩ := takes
  cases item with
  | caseItem source patterns children => exact ⟨source, patterns, children, rfl⟩
  | _ => cases member

theorem find?_prunes (takes : Node → Prop) [DecidablePred takes] (items kept : List Node)
    (pruned : Prunes takes items kept) :
    items.find? (fun item => takes item) = kept.find? (fun item => takes item) := by
  induction pruned with
  | none => rfl
  | keep item rest kept later ih => rw [List.find?_cons, List.find?_cons, ih]
  | drop item rest kept dead later ih => rw [List.find?_cons_of_neg (by simpa using dead), ih]
  | cut item rest kept taken fewer =>
      rw [List.find?_cons_of_pos (by simpa using taken),
        List.find?_cons_of_pos (by simpa using taken)]

end Node

def Shell.taken (shell : Shell) : Option Node → Step
  | some item => shell.sequence item.itemParts
  | none => Step.skip

theorem Shell.chosen_eq_taken (shell : Shell) (items : List Node) (subject : String)
    (context : Context) :
    Walk.chosen (Walk.armsWith shell.walk items) subject context =
      shell.taken (items.find? fun item => item.Takes context subject) context := by
  induction items with
  | nil => rfl
  | cons item rest ih =>
      cases item with
      | caseItem source patterns children =>
          rw [Walk.chosen_caseItem, ih, List.find?_cons]
          by_cases takes : Node.Takes context subject (.caseItem source patterns children)
          · rw [if_pos ((Node.takes_caseItem ..).mp takes), decide_eq_true takes]
            rfl
          · rw [if_neg (mt (Node.takes_caseItem ..).mpr takes), decide_eq_false takes]
      | _ =>
          rw [List.find?_cons_of_neg (by simp [Node.Takes, Node.itemPatterns])]
          exact ih

theorem Shell.walk_case (shell : Shell) (source : Source) (subject : Option Node)
    (items : List Node) (context : Context) :
    shell.walk (.caseOf source subject items) context = shell.taken (items.find? fun item =>
      item.Takes context (Node.expandSlot subject context)) context :=
  (congrFun (shell.walk_eq _) context).trans (shell.chosen_eq_taken items _ context)

theorem case_selects_first (shell : Shell) (source : Source) (subject : Option Node)
    (context : Context) :
    let takes := Node.Takes context (Node.expandSlot subject context)
    let run := fun items => shell.walk (.caseOf source subject items) context
    (∀ item, takes item → ∃ place patterns children, item = .caseItem place patterns children) ∧
    (∀ (place : Source) (front patterns children rest : List Node),
      (∀ item ∈ front, ¬ takes item) → takes (.caseItem place patterns children) →
      run (front ++ .caseItem place patterns children :: rest) =
        shell.sequence children context) ∧
    (∀ items, (∀ item ∈ items, ¬ takes item) → run items = .ok context) ∧
    (∀ items kept, Node.Prunes takes items kept → run items = run kept) ∧
    ∀ items others, items.Perm others →
      (∀ one ∈ items, ∀ other ∈ items, takes one → takes other → one = other) →
      run items = run others := by
  intro takes run
  have ran : ∀ items, run items = shell.taken (items.find? fun item => takes item) context :=
    fun items => shell.walk_case source subject items context
  refine ⟨fun item => item.takes_isItem context _, ?_, ?_, ?_, ?_⟩
  · intro place front patterns children rest dead matching
    have found : (front ++ .caseItem place patterns children :: rest).find?
        (fun item => takes item) = some (.caseItem place patterns children) :=
      List.find?_eq_some_iff_append.mpr
        ⟨decide_eq_true matching, front, rest, rfl, by simpa using dead⟩
    rw [ran, found]
    rfl
  · intro items dead
    rw [ran, List.find?_eq_none.mpr (by simpa using dead)]
    rfl
  · intro items kept pruned
    rw [ran, ran, Node.find?_prunes takes items kept pruned]
  · intro items others permuted alone
    have same : items.find? (fun item => takes item) = others.find? (fun item => takes item) := by
      refine List.find?_eq_find?_of_perm permuted ?_
      rintro one ⟨here, first⟩ other ⟨there, second⟩
      exact alone one here other there (of_decide_eq_true first) (of_decide_eq_true second)
    rw [ran, ran, same]

theorem case_selects_first_variable :
    let shell := Shell.standard .void
    let context := Context.start .simulate (.ofList [("X", "b")]) false
    let item := fun pattern value => Node.caseItem (.ofText "") [pattern]
      [.ofAssignment "V" (.ofWord value)]
    let glob := item (.other "extglob_pattern" (.ofText "?") [.ofVariable "X"]) "1"
    let plain := item (.ofVariable "X") "2"
    let star := item (.ofWord "*") "3"
    let note := Node.leaf .comment (.ofText "#")
    let run := fun items => shell.walk (.caseOf (.ofText "") (some (.ofWord "b")) items) context
    (∃ after, run [note, glob, plain, star] = .ok after ∧ after.local? "V" = some "2") ∧
    run [note, glob, plain, star] = run [glob, plain] ∧ run [glob, plain] = run [plain, glob] ∧
    run [note, glob] = .ok context := by
  intro shell context item glob plain star note run
  obtain ⟨_, first, none, pruned, permuted⟩ := case_selects_first shell (.ofText "")
    (some (.ofWord "b")) context
  have dead : ∀ other ∈ [note, glob], ¬ Node.Takes context "b" other := by decide
  have matching : Node.Takes context "b" plain := by decide
  refine ⟨?_, ?_, ?_, none [note, glob] dead⟩
  · exact ⟨_, (first (.ofText "") [note, glob] [.ofVariable "X"]
      [.ofAssignment "V" (.ofWord "2")] [star] dead matching).trans rfl, rfl⟩
  · exact pruned _ _ (.drop note _ _ (dead note (List.mem_cons_self ..))
      (.keep glob _ _ (.cut plain [star] [] matching (List.nil_sublist _))))
  · have only : ∀ other ∈ [glob, plain], Node.Takes context "b" other → other = plain := by
      intro other member takes
      rcases List.mem_cons.mp member with rfl | last
      · exact absurd takes (dead glob (List.mem_cons_of_mem _ (List.mem_cons_self ..)))
      · exact List.mem_singleton.mp last
    refine permuted _ _ (List.Perm.swap ..) fun one here other there left right => ?_
    rw [only one here left, only other there right]

end ShellWalk
