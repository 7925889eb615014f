import ShellWalk.Proofs.Strictness
import ShellWalk.Proofs.Unfolding

set_option autoImplicit false

namespace ShellWalk

-- Going through the clauses of a branch comes to a body and to the context in which it is entered;
-- when no clause is taken, that body is empty.
inductive Picks (shell : Shell) (room : Nat) : List Node → Context → List Node → Context → Prop where
  | none (context : Context) : Picks shell room [] context [] context
  | otherwise (source : Source) (children rest : List Node) (context : Context) :
      Picks shell room (.group .elseClause source children :: rest) context children context
  | here (source : Source) (condition body rest : List Node) (context checked : Context)
      (ran : shell.sequenceWithin room condition context = .ok checked)
      (holds : checked.succeeded = true) :
      Picks shell room (.branch .elifClause source condition body :: rest) context body checked
  | later (source : Source) (condition body rest taken : List Node)
      (context checked entered : Context) (ran : shell.sequenceWithin room condition context = .ok checked)
      (fails : checked.succeeded = false) (further : Picks shell room rest checked taken entered) :
      Picks shell room (.branch .elifClause source condition body :: rest) context taken entered

theorem Step.alternatives_congr (condition body : List Step) (rest others : List Step.Clause)
    (same : Step.alternatives rest = Step.alternatives others) :
    Step.alternatives (.orElse condition body :: rest) =
      Step.alternatives (.orElse condition body :: others) := by
  funext context
  simp only [Step.alternatives, same]

namespace Node

theorem statements_of_branch (body clauses : List Node)
    (plain : ∀ node ∈ body, node.isAlternative = false)
    (alternative : ∀ node ∈ clauses, node.isAlternative = true) :
    ((body ++ clauses).filter fun child => !child.isAlternative) = body := by
  have kept : (body.filter fun child => !child.isAlternative) = body :=
    List.filter_eq_self.mpr fun node member => by simp [plain node member]
  have dropped : (clauses.filter fun child => !child.isAlternative) = [] :=
    List.filter_eq_nil_iff.mpr fun node member => by simp [alternative node member]
  rw [List.filter_append, kept, dropped, List.append_nil]

theorem clauses_of_branch (run : Node → Step) (body clauses : List Node)
    (plain : ∀ node ∈ body, node.isAlternative = false) :
    Walk.clausesWith run (body ++ clauses) = Walk.clausesWith run clauses := by
  induction body with
  | nil => rfl
  | cons first rest ih =>
      have statement := plain first (List.mem_cons_self ..)
      have later := ih fun node member => plain node (List.mem_cons_of_mem _ member)
      rw [List.cons_append, Walk.clausesWith, later]
      · rintro source children rfl
        cases statement
      · rintro source condition children rfl
        cases statement

end Node

namespace Shell

variable (shell : Shell) (room : Nat)

theorem within_if (source : Source) (condition body clauses : List Node)
    (plain : ∀ node ∈ body, node.isAlternative = false)
    (alternative : ∀ node ∈ clauses, node.isAlternative = true) :
    shell.within room (.branch .ifStatement source condition (body ++ clauses)) =
      Step.alternatives (Walk.clausesWith (shell.within room)
        (.branch .elifClause source condition body :: clauses)) := by
  rw [within_branch, Node.statements_of_branch body clauses plain alternative,
    Node.clauses_of_branch (shell.within room) body clauses plain]
  rfl

theorem alternatives_picks (clauses taken : List Node) (context entered : Context)
    (picks : Picks shell room clauses context taken entered) :
    Step.alternatives (Walk.clausesWith (shell.within room) clauses) context =
      shell.sequenceWithin room taken entered := by
  induction picks with
  | none context => rfl
  | otherwise source children rest context => rfl
  | here source condition body rest context checked ran holds =>
      refine (Step.andThen_of_ok (shell.sequenceWithin room condition) _ context checked ran).trans ?_
      rw [if_pos holds]
      rfl
  | later source condition body rest taken context checked entered ran fails further ih =>
      refine (Step.andThen_of_ok (shell.sequenceWithin room condition) _ context checked ran).trans ?_
      rw [if_neg (by simp [fails])]
      exact ih

theorem alternatives_ok (clauses : List Node) (context after : Context)
    (alternative : ∀ node ∈ clauses, node.isAlternative = true)
    (done : Step.alternatives (Walk.clausesWith (shell.within room) clauses) context = .ok after) :
    ∃ taken entered, Picks shell room clauses context taken entered := by
  induction clauses generalizing context with
  | nil => exact ⟨[], context, .none context⟩
  | cons clause rest ih =>
      have others := fun node member => alternative node (List.mem_cons_of_mem clause member)
      have here := alternative clause (List.mem_cons_self ..)
      cases clause with
      | group kind source children =>
          cases kind with
          | elseClause => exact ⟨children, context, .otherwise source children rest context⟩
          | _ => cases here
      | branch kind source condition body =>
          cases kind with
          | ifStatement => cases here
          | elifClause =>
              obtain ⟨checked, ran, onward⟩ :=
                Step.andThen_ok (shell.sequenceWithin room condition) _ context after done
              by_cases holds : checked.succeeded = true
              · exact ⟨body, checked, .here source condition body rest context checked ran holds⟩
              · rw [if_neg holds] at onward
                obtain ⟨taken, entered, further⟩ := ih checked others onward
                exact ⟨taken, entered, .later source condition body rest taken context checked
                  entered ran (by simpa using holds) further⟩
      | _ => cases here

end Shell

theorem elif_desugars (shell : Shell) (room : Nat) :
    let walk := shell.within room
    (∀ (whole nested outer clause inner : Source) (condition body second inside rest : List Node),
      (∀ node ∈ body, node.isAlternative = false) →
      (∀ node ∈ inside, node.isAlternative = false) →
      (∀ node ∈ rest, node.isAlternative = true) →
      walk (.branch .ifStatement whole condition
        (body ++ [.branch .elifClause clause second inside] ++ rest)) =
      walk (.branch .ifStatement nested condition (body ++
        [.group .elseClause outer [.branch .ifStatement inner second (inside ++ rest)]]))) ∧
    ∀ (source : Source) (condition body clauses : List Node) (context : Context),
      (∀ node ∈ body, node.isAlternative = false) →
      (∀ node ∈ clauses, node.isAlternative = true) →
      (∀ taken entered,
        Picks shell room (.branch .elifClause source condition body :: clauses) context taken
          entered →
        walk (.branch .ifStatement source condition (body ++ clauses)) context =
          shell.sequenceWithin room taken entered) ∧
      ∀ after, walk (.branch .ifStatement source condition (body ++ clauses)) context = .ok after →
        ∃ taken entered,
          Picks shell room (.branch .elifClause source condition body :: clauses) context taken
            entered := by
  intro walk
  constructor
  · intro whole nested outer clause inner condition body second inside rest plain statements clauses
    have chain := shell.within_if room whole condition body
      (.branch .elifClause clause second inside :: rest) plain
      (by simpa [Node.isAlternative] using clauses)
    have desugared := shell.within_if room nested condition body
      [.group .elseClause outer [.branch .ifStatement inner second (inside ++ rest)]] plain
      (by simp [Node.isAlternative])
    simp only [walk]
    rw [List.append_assoc, List.singleton_append, chain, desugared]
    refine Step.alternatives_congr _ _ _ _ ?_
    calc Step.alternatives (Walk.clausesWith (shell.within room)
          (.branch .elifClause clause second inside :: rest))
        = shell.within room (.branch .ifStatement inner second (inside ++ rest)) :=
          (shell.within_if room inner second inside rest statements clauses).symm
      _ = Step.sequence [shell.within room (.branch .ifStatement inner second (inside ++ rest))] :=
          (Step.sequence_single _).symm
  · intro source condition body clauses context plain alternative
    have first : ∀ node ∈ Node.branch .elifClause source condition body :: clauses,
        node.isAlternative = true := by
      simpa [Node.isAlternative] using alternative
    simp only [walk, shell.within_if room source condition body clauses plain alternative]
    exact ⟨fun taken entered => shell.alternatives_picks room _ taken context entered,
      fun after => shell.alternatives_ok room _ context after first⟩

theorem elif_desugars_third :
    let shell := Shell.standard .void
    let context := Context.start .simulate .empty true
    let bind := fun value => [Node.ofAssignment "X" (.ofWord value)]
    let check := fun name => [Node.ofCommand name [] []]
    let rest := [Node.branch .elifClause (.ofText "") (check "true") (bind "c"),
      .group .elseClause (.ofText "") (bind "d")]
    let chain := Node.branch .ifStatement (.ofText "") (check "false")
      (bind "a" ++ [.branch .elifClause (.ofText "") (check "false") (bind "b")] ++ rest)
    let nested := Node.branch .ifStatement (.ofText "") (check "false") (bind "a" ++
      [.group .elseClause (.ofText "")
        [.branch .ifStatement (.ofText "") (check "false") (bind "b" ++ rest)]])
    shell.walk chain context = shell.walk nested context ∧
      ∃ after, shell.walk chain context = .ok after ∧ after.local? "X" = some "c" := by
  intro shell context bind check rest chain nested
  have plain : ∀ value, ∀ node ∈ bind value, node.isAlternative = false := by
    intro value node member
    cases List.mem_singleton.mp member
    rfl
  have clauses : ∀ node ∈ rest, node.isAlternative = true := by
    intro node member
    rcases List.mem_cons.mp member with rfl | last
    · rfl
    · cases List.mem_singleton.mp last
      rfl
  obtain ⟨desugars, runs⟩ := elif_desugars shell 100
  refine ⟨congrFun (desugars _ _ _ _ _ _ _ _ _ rest (plain "a") (plain "b") clauses) context, ?_⟩
  have picked : ∃ entered, Picks shell 100
      (.branch .elifClause (.ofText "") (check "false") (bind "a") ::
        .branch .elifClause (.ofText "") (check "false") (bind "b") :: rest) context (bind "c")
      entered ∧ ∃ after, shell.sequence (bind "c") entered = .ok after ∧
        after.local? "X" = some "c" :=
    ⟨_, .later _ _ _ _ _ _ _ _ rfl rfl (.later _ _ _ _ _ _ _ _ rfl rfl
      (.here _ _ _ _ _ _ rfl rfl)), _, rfl, rfl⟩
  obtain ⟨entered, picks, after, ran, bound⟩ := picked
  have taken := (runs (.ofText "") (check "false") (bind "a")
    (.branch .elifClause (.ofText "") (check "false") (bind "b") :: rest) context (plain "a") (by
      simpa [Node.isAlternative] using clauses)).1 (bind "c") entered picks
  exact ⟨after, taken.trans ran, bound⟩

end ShellWalk
