import ShellWalk.Proofs.Loops

set_option autoImplicit false

namespace ShellWalk

theorem Context.stops_iff (context : Context) :
    context.stops = true ↔ context.strict = true ∧ context.exitCode ≠ 0 := by
  simp [stops, succeeded]

namespace Step

def followed (first second : Step) : Step :=
  first.andThen fun after => if after.stops then .ok after else second after

section Followed

variable (first second third : Step) (context after : Context)

theorem followed_of_ok (ran : first context = .ok after) :
    first.followed second context = if after.stops then .ok after else second after :=
  andThen_of_ok first _ context after ran

theorem followed_of_error (halt : Halt) (ran : first context = .error halt) :
    first.followed second context = .error halt :=
  andThen_of_error first _ context halt ran

theorem followed_of_alive (ran : first context = .ok after) (alive : after.stops = false) :
    first.followed second context = second after := by
  rw [followed_of_ok first second context after ran, if_neg (by simp [alive])]

theorem followed_of_stops (ran : first context = .ok after) (stopped : after.stops = true) :
    first.followed second context = .ok after := by
  rw [followed_of_ok first second context after ran, if_pos stopped]

theorem followed_start (other : Step) (start : Context) (same : first context = other start) :
    first.followed second context = other.followed second start := by
  unfold followed andThen
  rw [same]

theorem followed_congr (same : ∀ after, first context = .ok after → after.stops = false →
    second after = third after) : first.followed second context = first.followed third context := by
  cases ran : first context with
  | error halt => rw [followed_of_error _ _ _ _ ran, followed_of_error _ _ _ _ ran]
  | ok after =>
      by_cases stopped : after.stops = true
      · rw [followed_of_stops _ _ _ _ ran stopped, followed_of_stops _ _ _ _ ran stopped]
      · have alive : after.stops = false := by simpa using stopped
        rw [followed_of_alive _ _ _ _ ran alive, followed_of_alive _ _ _ _ ran alive]
        exact same after ran alive

theorem followed_eq_andThen
    (alive : ∀ after, first context = .ok after → after.stops = false) :
    first.followed second context = first.andThen second context := by
  cases ran : first context with
  | error halt => rw [followed_of_error _ _ _ _ ran, andThen_of_error _ _ _ _ ran]
  | ok after =>
      rw [followed_of_alive _ _ _ _ ran (alive after ran), andThen_of_ok _ _ _ _ ran]

theorem followed_assoc :
    (first.followed second).followed third = first.followed (second.followed third) := by
  funext context
  cases ran : first context with
  | error halt =>
      rw [followed_of_error _ _ _ _ ran]
      exact followed_of_error _ _ _ _ (followed_of_error _ _ _ _ ran)
  | ok after =>
      by_cases stopped : after.stops = true
      · rw [followed_of_stops _ _ _ _ ran stopped]
        exact followed_of_stops _ _ _ _ (followed_of_stops _ _ _ _ ran stopped) stopped
      · have alive : after.stops = false := by simpa using stopped
        rw [followed_of_alive _ _ _ _ ran alive]
        exact followed_start _ _ _ second after (followed_of_alive _ _ _ _ ran alive)

end Followed

theorem sequence_append (front rest : List Step) (present : front ≠ []) :
    sequence (front ++ rest) = (sequence front).followed (sequence rest) := by
  induction front with
  | nil => exact absurd rfl present
  | cons step others ih =>
      by_cases last : others = []
      · rw [last]
        exact congrArg (followed · (sequence rest)) (sequence_single step).symm
      · change step.followed (sequence (others ++ rest)) = _
        rw [ih last]
        exact (followed_assoc step (sequence others) (sequence rest)).symm

end Step

namespace Shell

variable (shell : Shell) (room : Nat)

theorem sequence_append (front rest : List Node) (present : front ≠ []) :
    shell.sequenceWithin room (front ++ rest) =
      (shell.sequenceWithin room front).followed (shell.sequenceWithin room rest) := by
  unfold sequenceWithin
  rw [List.map_append]
  exact Step.sequence_append _ _ (by simpa using present)

theorem sequence_single (node : Node) :
    shell.sequenceWithin room [node] = shell.within room node :=
  Step.sequence_single (shell.within room node)

theorem sequence_behind (front rest others : List Node)
    (same : shell.sequenceWithin room rest = shell.sequenceWithin room others) :
    shell.sequenceWithin room (front ++ rest) = shell.sequenceWithin room (front ++ others) := by
  by_cases none : front = []
  · rw [none]
    exact same
  · rw [shell.sequence_append room front rest none, shell.sequence_append room front others none,
      same]

theorem sequence_group (kind : GroupKind) (source : Source) (children rest : List Node)
    (present : children ≠ []) : shell.sequenceWithin room ([.group kind source children] ++ rest) =
      shell.sequenceWithin room (children ++ rest) := by
  rw [shell.sequence_append room _ rest (List.cons_ne_nil _ _),
    shell.sequence_append room children rest present, shell.sequence_single, shell.within_group]

end Shell

theorem groups_transparent (shell : Shell) (room : Nat) :
    let walk := shell.within room
    let sequence := shell.sequenceWithin room
    (∀ (kind : GroupKind) (source : Source) (front children rest : List Node), children ≠ [] →
      sequence (front ++ [.group kind source children] ++ rest) =
        sequence (front ++ children ++ rest)) ∧
    (∀ (source : Source) (body : Node) (redirects front rest : List Node),
      sequence (front ++ [.redirected source (some body) redirects] ++ rest) =
        sequence (front ++ [body] ++ rest)) ∧
    ∀ (kind : GroupKind) (one other whole : Source) (first second : List Node) (context : Context),
      let ended := fun between : Context => first ≠ [] ∧
        walk (.group kind one first) context = .ok between ∧ between.strict = true ∧
        between.exitCode ≠ 0
      ((¬ ∃ between, ended between) →
        (walk (.group kind one first)).andThen (walk (.group kind other second)) context =
          walk (.group kind whole (first ++ second)) context) ∧
      ∀ between, ended between →
        walk (.group kind whole (first ++ second)) context = .ok between := by
  intro walk sequence
  refine ⟨?_, ?_, ?_⟩
  · intro kind source front children rest present
    rw [List.append_assoc, List.append_assoc]
    exact shell.sequence_behind room front _ _
      (shell.sequence_group room kind source children rest present)
  · intro source body redirects front rest
    have same := shell.within_redirected room source body redirects
    simp only [sequence, Shell.sequenceWithin, List.map_append, List.map_cons, same]
  · intro kind one other whole first second context
    simp only [walk, shell.within_group]
    constructor
    · intro goes
      by_cases none : first = []
      · rw [none]
        exact Step.andThen_of_ok _ _ context context rfl
      · rw [shell.sequence_append room first second none]
        refine (Step.followed_eq_andThen _ _ context fun between ran => ?_).symm
        exact Bool.eq_false_iff.mpr fun stopped =>
          goes ⟨between, none, ran, between.stops_iff.mp stopped⟩
    · rintro between ⟨present, ran, stopped⟩
      rw [shell.sequence_append room first second present]
      exact Step.followed_of_stops _ _ context between ran (between.stops_iff.mpr stopped)

theorem groups_transparent_stopped :
    let shell := Shell.standard .void
    let context := (Context.start .simulate .empty true).setExitCode 3
    let bind := fun name => Node.ofAssignment name (.ofWord "1")
    let fails := Node.ofCommand "false" [] []
    let succeeds := Node.ofCommand "true" [] []
    let inner := [succeeds, bind "A", fails, bind "B"]
    (shell.sequence ([succeeds] ++ [.ofGroup inner] ++ [bind "C"]) context =
      shell.sequence ([succeeds] ++ inner ++ [bind "C"]) context ∧
      ∃ after, shell.sequence ([succeeds] ++ [.ofGroup inner] ++ [bind "C"]) context = .ok after ∧
        after.local? "A" = some "1" ∧ after.local? "B" = none ∧ after.local? "C" = none) ∧
    (shell.walk (.ofGroup [succeeds, bind "A"])).andThen (shell.walk (.ofGroup [bind "B"]))
        context =
      shell.walk (.ofGroup [succeeds, bind "A", bind "B"]) context ∧
    ∃ after, shell.walk (.ofGroup inner) context = .ok after ∧ after.exitCode = 1 ∧
      shell.walk (.ofGroup (inner ++ [bind "C"])) context = .ok after := by
  intro shell context bind fails succeeds inner
  obtain ⟨taken, _, pieces⟩ := groups_transparent shell 100
  refine ⟨⟨?_, _, rfl, rfl, rfl, rfl⟩, ?_, ?_⟩
  · exact congrFun (taken .compound _ [succeeds] inner [bind "C"] (List.cons_ne_nil _ _)) context
  · refine (pieces .compound _ _ _ [succeeds, bind "A"] [bind "B"] context).1 ?_
    rintro ⟨between, _, ran, _, failed⟩
    cases ran
    exact failed rfl
  · have ended : ∃ after, shell.walk (.ofGroup inner) context = .ok after ∧
        after.strict = true ∧ after.exitCode = 1 := ⟨_, rfl, rfl, rfl⟩
    obtain ⟨after, ran, strict, code⟩ := ended
    refine ⟨after, ran, code, ?_⟩
    exact (pieces .compound _ (.ofText "") _ inner [bind "C"] context).2 after
      ⟨List.cons_ne_nil _ _, ran, strict, by omega⟩

def Node.unrolled (place : Source) (span : Span) (binder : Node) (body : Option Node)
    (items : List String) : List Node :=
  items.flatMap fun item =>
    .assignment place (some binder) (some (.leaf .word ⟨span, item⟩)) :: body.toList

namespace Step

-- The items up to the first whose round comes to such an end, that one among them. Where a round
-- breaks down nothing is left out, for what follows is not run.
def upTo (ends : Context → Bool) (round : String → Step) : List String → Context → List String
  | [], _ => []
  | item :: rest, context =>
      match round item context with
      | .ok after => if ends after then [item] else item :: upTo ends round rest after
      | .error _ => item :: rest

section UpTo

variable (ends : Context → Bool) (round : String → Step) (item : String) (rest : List String)
  (context after : Context)

theorem upTo_of_ok (ran : round item context = .ok after) :
    upTo ends round (item :: rest) context =
      if ends after then [item] else item :: upTo ends round rest after := by
  simp only [upTo, ran]

theorem upTo_of_error (halt : Halt) (ran : round item context = .error halt) :
    upTo ends round (item :: rest) context = item :: rest := by
  simp only [upTo, ran]

end UpTo

theorem andThen_assoc (first second third : Step) :
    (first.andThen second).andThen third = first.andThen (second.andThen third) := by
  funext context
  unfold andThen
  cases first context <;> rfl

theorem inOrder_append (front rest : List Step) :
    inOrder (front ++ rest) = (inOrder front).andThen (inOrder rest) := by
  induction front with
  | nil => rfl
  | cons step others ih =>
      change step.andThen (inOrder (others ++ rest)) = (step.andThen (inOrder others)).andThen _
      rw [ih, andThen_assoc]

theorem forEach_eq_sequence (name : String) (body : Step) (items : List String) :
    forEach name body items =
      sequence (items.map fun item => (update (·.setVariable name item)).andThen body) := by
  induction items with
  | nil => rfl
  | cons item rest ih =>
      funext context
      change body.followed (forEach name body rest) (context.setVariable name item) = _
      rw [ih]
      rfl

theorem sequence_eq_inOrder (round : String → Step) (items : List String) (context : Context) :
    sequence (items.map round) context =
      inOrder ((upTo Context.stops round items context).map round) context := by
  induction items generalizing context with
  | nil => rfl
  | cons item rest ih =>
      change (round item).followed (sequence (rest.map round)) context = _
      cases ran : round item context with
      | error halt =>
          rw [followed_of_error _ _ _ _ ran, upTo_of_error _ _ _ _ _ _ ran]
          exact (andThen_of_error _ _ _ _ ran).symm
      | ok after =>
          rw [followed_of_ok _ _ _ _ ran, upTo_of_ok _ _ _ _ _ _ ran]
          by_cases stopped : after.stops = true
          · rw [if_pos stopped, if_pos stopped]
            exact (andThen_of_ok _ _ _ _ ran).symm
          · rw [if_neg stopped, if_neg stopped, ih]
            exact (andThen_of_ok _ _ _ _ ran).symm

theorem upTo_strict (round : String → Step) (keeps : ∀ item, (round item).Keeps
    fun before after => after.strict = before.strict) (items : List String) (context : Context)
    (strict : context.strict = true) :
    upTo Context.stops round items context =
      upTo (fun after => !after.succeeded) round items context := by
  induction items generalizing context with
  | nil => rfl
  | cons item rest ih =>
      cases ran : round item context with
      | error halt => rw [upTo_of_error _ _ _ _ _ _ ran, upTo_of_error _ _ _ _ _ _ ran]
      | ok after =>
          have still : after.strict = true := (keeps item context after ran).trans strict
          rw [upTo_of_ok _ _ _ _ _ _ ran, upTo_of_ok _ _ _ _ _ _ ran, ih after still]
          simp only [Context.stops, still, Bool.true_and]

end Step

namespace Shell

variable (shell : Shell) (place : Source) (span : Span) (binder : Node) (body : Option Node)

def round (item : String) : Step :=
  Step.inOrder ((Node.unrolled place span binder body [item]).map shell.walk)

theorem walk_binding (item : String) :
    shell.walk (.assignment place (some binder) (some (.leaf .word ⟨span, item⟩))) =
      Step.update (·.setVariable binder.text item) :=
  shell.walk_eq _

theorem walk_forEach (source : Source) (values : List Node) (context : Context)
    (named : isIdentifier binder.text.toList = true) :
    shell.walk (.forEach source (some binder) values body) context =
      Step.forEach binder.text (Walk.slotWith shell.walk body) (Walk.items values context)
        context := by
  refine (congrFun (shell.walk_eq _) context).trans ?_
  simp only [Walk.nodeWith, Walk.iterate, if_pos named]

theorem inOrder_slot (slot : Option Node) :
    Step.inOrder (slot.toList.map shell.walk) = Walk.slotWith shell.walk slot := by
  cases slot with
  | none => rfl
  | some node => exact (shell.walk node).andThen_skip

theorem round_eq (item : String) : shell.round place span binder body item =
    (Step.update (·.setVariable binder.text item)).andThen (Walk.slotWith shell.walk body) := by
  rw [← shell.inOrder_slot body, ← shell.walk_binding place span binder item, round]
  simp only [Node.unrolled, List.flatMap_cons, List.flatMap_nil, List.append_nil]
  rfl

theorem inOrder_unrolled (items : List String) :
    Step.inOrder ((Node.unrolled place span binder body items).map shell.walk) =
      Step.inOrder (items.map (shell.round place span binder body)) := by
  induction items with
  | nil => rfl
  | cons item rest ih =>
      have apart : Node.unrolled place span binder body (item :: rest) =
          Node.unrolled place span binder body [item] ++
            Node.unrolled place span binder body rest := by
        simp [Node.unrolled]
      rw [apart, List.map_append, Step.inOrder_append, ih]
      rfl

theorem sequence_slot (slot : Option Node) (rest : List Node) (context : Context)
    (alive : context.stops = false) :
    shell.sequence (slot.toList ++ rest) context =
      (Walk.slotWith shell.walk slot).followed (shell.sequence rest) context := by
  cases slot with
  | none => exact (Step.followed_of_alive Step.skip _ context context rfl alive).symm
  | some node => rfl

theorem sequence_unrolled (items : List String) (context : Context)
    (alive : context.stops = false) :
    shell.sequence (Node.unrolled place span binder body items) context =
      Step.forEach binder.text (Walk.slotWith shell.walk body) items context := by
  induction items generalizing context with
  | nil => rfl
  | cons item rest ih =>
      have bound : shell.walk (.assignment place (some binder) (some (.leaf .word ⟨span, item⟩)))
          context = .ok (context.setVariable binder.text item) :=
        congrFun (shell.walk_binding place span binder item) context
      calc shell.sequence (Node.unrolled place span binder body (item :: rest)) context
          = shell.sequence (body.toList ++ Node.unrolled place span binder body rest)
              (context.setVariable binder.text item) :=
            Step.followed_of_alive _ _ context _ bound alive
        _ = (Walk.slotWith shell.walk body).followed
              (shell.sequence (Node.unrolled place span binder body rest))
              (context.setVariable binder.text item) :=
            shell.sequence_slot body _ _ alive
        _ = (Walk.slotWith shell.walk body).followed
              (Step.forEach binder.text (Walk.slotWith shell.walk body) rest)
              (context.setVariable binder.text item) :=
            Step.followed_congr _ _ _ _ fun after _ goes => ih after goes

theorem round_strict (keeps : shell.registry.KeepsStrict shell.host) (item : String) :
    (shell.round place span binder body item).Keeps
      fun before after => after.strict = before.strict := by
  rw [shell.round_eq]
  refine Walk.strict_conserved.andThen _ _ (Conserved.update _ fun _ => rfl) ?_
  cases body with
  | none => exact Conserved.update id fun _ => rfl
  | some node => exact shell.within_strict keeps _ node

theorem walk_forEach_upTo (source : Source) (values : List Node) (context : Context)
    (named : isIdentifier binder.text.toList = true) :
    shell.walk (.forEach source (some binder) values body) context =
      Step.inOrder ((Node.unrolled place span binder body (Step.upTo Context.stops
        (shell.round place span binder body) (Walk.items values context) context)).map shell.walk)
        context := by
  rw [shell.walk_forEach binder body source values context named, Step.forEach_eq_sequence,
    shell.inOrder_unrolled, ← funext (shell.round_eq place span binder body)]
  exact Step.sequence_eq_inOrder _ _ context

end Shell

theorem for_loop_unrolls (shell : Shell) (source place : Source) (span : Span) (binder : Node)
    (values : List Node) (body : Option Node) (context : Context)
    (named : isIdentifier binder.text.toList = true) :
    let items := if values.isEmpty then context.positional
      else values.map fun value => value.expand context
    let unrolled := Node.unrolled place span binder body
    let round := shell.round place span binder body
    let run := shell.walk (.forEach source (some binder) values body) context
    (context.strict = false → run = shell.sequence (unrolled items) context) ∧
    run = Step.inOrder ((unrolled (Step.upTo Context.stops round items context)).map shell.walk)
      context ∧
    (shell.registry.KeepsStrict shell.host → context.strict = true →
      run = Step.inOrder ((unrolled (Step.upTo (fun after => !after.succeeded) round items
        context)).map shell.walk) context) := by
  intro items unrolled round run
  have cut : run = Step.inOrder ((unrolled (Step.upTo Context.stops round items context)).map
      shell.walk) context :=
    shell.walk_forEach_upTo place span binder body source values context named
  refine ⟨fun lenient => ?_, cut, fun keeps strict => ?_⟩
  · have alive : context.stops = false := by simp only [Context.stops, lenient, Bool.false_and]
    exact (shell.walk_forEach binder body source values context named).trans
      (shell.sequence_unrolled place span binder body items context alive).symm
  · rw [← Step.upTo_strict round (shell.round_strict place span binder body keeps) items context
      strict]
    exact cut

theorem for_loop_unrolls_rebound :
    let shell := Shell.standard .void
    let span : Span := ⟨⟨0, 0⟩, ⟨0, 0⟩⟩
    let values := [Node.ofWord "a", .ofVariable "X", .ofWord "c"]
    let body := some (Node.ofGroup [.ofCommand "f" [] [], .ofAssignment "X" (.ofVariable "i"),
      .ofFunction "f" (.ofCommand "false" [] [])])
    let loop := Node.forEach (.ofText "") (some (.ofName "i")) values body
    let unrolled := Node.unrolled (.ofText "") span (.ofName "i") body
    let start := fun strict => ((Context.start .simulate (.ofList [("X", "b")]) strict).define "f"
      (.ofCommand "true" [] [])).setExitCode 3
    (shell.walk loop (start false) = shell.sequence (unrolled ["a", "b", "c"]) (start false) ∧
      ∃ after, shell.walk loop (start false) = .ok after ∧ after.local? "X" = some "c") ∧
    shell.walk loop (start true) =
      Step.inOrder ((unrolled ["a", "b"]).map shell.walk) (start true) ∧
    ∃ after, shell.walk loop (start true) = .ok after ∧ after.local? "i" = some "b" := by
  intro shell span values body loop unrolled start
  have unrolls := fun strict => for_loop_unrolls shell (.ofText "") (.ofText "") span (.ofName "i")
    values body (start strict) (by decide)
  obtain ⟨lenient, _, _⟩ := unrolls false
  obtain ⟨_, _, strict⟩ := unrolls true
  refine ⟨⟨lenient rfl, _, rfl, rfl⟩, ?_, _, rfl, rfl⟩
  exact strict (Registry.standard_keepsStrict .void) rfl

end ShellWalk
