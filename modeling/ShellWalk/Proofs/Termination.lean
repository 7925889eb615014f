import ShellWalk.Proofs.Frame

set_option autoImplicit false

namespace ShellWalk

def Registry.KeepsDepth (registry : Registry) (host : Host) : Prop :=
  ∀ name handler, registry.handlers.get? name = some handler →
    ∀ arguments before after, handler host name arguments before = .ok after →
      after.callDepth = before.callDepth

theorem Registry.standard_keepsDepth (host : Host) : standard.KeepsDepth host := by
  intro name handler found arguments before after done
  exact (standard_wellBehaved host name handler found arguments before after done).callDepth

namespace Walk

-- Nothing catches a fault: when the fuel is used up anywhere, the answer as a whole is `spent`.
def fueled (shell : Shell) (spent : Halt) : Nat → Node → Step
  | 0, _ => fun _ => .error spent
  | fuel + 1, whole => nodeWith shell.limits.iterations
      (dispatch shell (call shell.limits (fueled shell spent fuel))) (fueled shell spent fuel) whole

abbrev Supply := Option (Nat × Halt)

def runs (shell : Shell) (room : Nat) : Supply → Node → Step
  | none => shell.within room
  | some (fuel, spent) => fueled shell spent fuel

def bodyRuns (shell : Shell) (room : Nat) : Supply → Node → Step
  | none => bodies shell room
  | some (fuel, spent) => fueled shell spent fuel

structure SettlesAt (steps : Supply → Step) (context : Context) : Prop where
  reached : ∃ enough, ∀ fuel, enough ≤ fuel → ∀ spent,
    steps (some (fuel, spent)) context = steps none context
  depth : ∀ after, steps none context = .ok after → after.callDepth = context.callDepth

-- With this much room a call of the walk is refused before the room runs out.
def Settles (shell : Shell) (room : Nat) (steps : Supply → Step) : Prop :=
  ∀ context, shell.limits.recursion ≤ context.callDepth + room → SettlesAt steps context

theorem popScope_depth (before after : Context) (done : before.popScope = .ok after) :
    after.callDepth = before.callDepth := by
  rw [Context.popScope_ok before after done]

theorem depth_conserved : Conserved fun before after => after.callDepth = before.callDepth where
  refl := fun _ => rfl
  trans := fun _ _ _ first second => second.trans first
  setVariable := fun _ _ _ => rfl
  unsetVariable := fun _ _ => rfl
  define := fun _ _ _ => rfl
  addErrors := fun _ _ => rfl
  setExitCode := fun _ _ => rfl
  inScope := fun context after popped inner done => (popScope_depth after popped done).trans inner
  called := by
    intro context arguments after inner
    have entered : after.callDepth = context.callDepth + 1 := inner
    simp only [Context.leaveCall, entered, Nat.add_sub_cancel]

section Settling

variable {shell : Shell} {room : Nat}

theorem settles_same (step : Step)
    (depth : ∀ before after, step before = .ok after → after.callDepth = before.callDepth) :
    Settles shell room fun _ => step :=
  fun context _ => ⟨⟨0, fun _ _ _ => rfl⟩, depth context⟩

theorem settles_update (change : Context → Context)
    (depth : ∀ context, (change context).callDepth = context.callDepth) :
    Settles shell room fun _ => Step.update change := by
  apply settles_same
  intro before after done
  cases done
  exact depth before

theorem settles_reads {α : Type} (read : Context → α) : Reads (Settles shell room) read := by
  intro next holds context fits
  obtain ⟨reached, depth⟩ := holds (read context) context fits
  exact ⟨reached, depth⟩

theorem settles_andThen (first second : Supply → Step) (here : Settles shell room first)
    (later : Settles shell room second) :
    Settles shell room fun run => (first run).andThen (second run) := by
  intro context fits
  obtain ⟨⟨enough, reached⟩, depth⟩ := here context fits
  cases ran : first none context with
  | error halt =>
      refine ⟨⟨enough, ?_⟩, ?_⟩
      · intro fuel plenty spent
        have stopped := (reached fuel plenty spent).trans ran
        rw [Step.andThen_of_error _ _ _ _ stopped, Step.andThen_of_error _ _ _ _ ran]
      · intro after done
        rw [Step.andThen_of_error _ _ _ _ ran] at done
        cases done
  | ok between =>
      have same := depth between ran
      obtain ⟨⟨more, continued⟩, deeper⟩ := later between (by rw [same]; exact fits)
      refine ⟨⟨max enough more, ?_⟩, ?_⟩
      · intro fuel plenty spent
        have stepped := (reached fuel (by omega) spent).trans ran
        rw [Step.andThen_of_ok _ _ _ _ stepped, Step.andThen_of_ok _ _ _ _ ran]
        exact continued fuel (by omega) spent
      · intro after done
        rw [Step.andThen_of_ok _ _ _ _ ran] at done
        exact (deeper after done).trans same

theorem settles_control : Control (Settles shell room) where
  skip := settles_update id fun _ => rfl
  andThen := settles_andThen
  succeeded := settles_reads _
  stops := settles_reads _

theorem settles_called (arguments : List String) (body : Supply → Step)
    (inner : Settles shell room body) :
    Settles shell (room + 1) fun run => Step.called arguments (body run) := by
  intro context fits
  have entered : shell.limits.recursion ≤ (context.enterCall arguments).callDepth + room := by
    simp only [Context.enterCall]
    omega
  obtain ⟨⟨enough, reached⟩, depth⟩ := inner _ entered
  refine ⟨⟨enough, ?_⟩, ?_⟩
  · intro fuel plenty spent
    simp only [Step.called, reached fuel plenty spent]
  · intro after done
    obtain ⟨last, ran, returned⟩ := Step.andThen_ok
      (fun context => body none (context.enterCall arguments))
      (fun after => .ok (after.leaveCall context.positional)) context after done
    cases returned
    exact depth_conserved.called context arguments last (depth last ran)

theorem settles_call (name : String) (body : Node) (arguments : List String)
    (inner : ∀ fewer, room = fewer + 1 → Settles shell fewer fun run => runs shell fewer run body) :
    Settles shell room fun run =>
      call shell.limits (bodyRuns shell room run) name body arguments := by
  intro context fits
  by_cases deep : shell.limits.recursion ≤ context.callDepth
  · have refused : Settles shell room fun _ => refuse shell.limits name body arguments :=
      settles_update _ fun _ => rfl
    obtain ⟨_, depth⟩ := refused context fits
    refine ⟨⟨0, fun fuel _ spent => ?_⟩, ?_⟩
    · simp only [call, if_pos deep]
    · simpa only [call, if_pos deep] using depth
  · cases room with
    | zero => omega
    | succ room =>
        have same : bodyRuns shell (room + 1) = runs shell room := by
          funext run
          rcases run with _ | ⟨fuel, spent⟩ <;> rfl
        obtain ⟨reached, depth⟩ := settles_called arguments _ (inner room rfl) context fits
        constructor <;> simpa only [call, if_neg deep, same]

theorem handle_depth (keeps : shell.registry.KeepsDepth shell.host) (name : String)
    (arguments : List String) : (handle shell name arguments).Keeps
      fun before after => after.callDepth = before.callDepth :=
  Conserved.handle shell (shell.registry.run_of_handlers shell.host keeps
    fun name arguments before =>
      (Registry.fallback_untouched shell.host name arguments before).callDepth) name arguments

theorem settles_dispatch (keeps : shell.registry.KeepsDepth shell.host)
    (inner : ∀ fewer, room = fewer + 1 → ∀ body,
      Settles shell fewer fun run => runs shell fewer run body) (name : String)
    (arguments : List String) :
    Settles shell room fun run =>
      dispatch shell (call shell.limits (bodyRuns shell room run)) name arguments :=
  dispatch_of_reads (fun _ => shell) _ name arguments (settles_reads _)
    (fun body => settles_call name body arguments fun fewer same => inner fewer same body)
    (settles_same _ (handle_depth keeps name arguments))

theorem settles_pieces (dispatch : Supply → Dispatch)
    (dispatched : ∀ name arguments, Settles shell room fun run => dispatch run name arguments) :
    Pieces (Settles shell room) (fun _ => True) (fun _ => shell.limits.iterations) dispatch :=
  depth_conserved.lockstep settles_control settles_reads settles_same (fun _ => rfl) popScope_depth
    (fun _ => shell.limits.iterations) dispatch
    (fun untilTrue condition body checked repeated => settles_control.flow.rounds untilTrue _
      condition body (settles_update _ fun _ => rfl) checked repeated _)
    dispatched

end Settling

theorem settles_runs (shell : Shell) (keeps : shell.registry.KeepsDepth shell.host) (room : Nat)
    (whole : Node) : Settles shell room fun run => runs shell room run whole := by
  -- The measure is lexicographic: the room that is left, and for each amount of it the tree.
  induction room using Nat.strongRecOn generalizing whole with
  | ind room called =>
      have deeper : ∀ fewer, room = fewer + 1 → ∀ body,
          Settles shell fewer fun run => runs shell fewer run body := by
        intro fewer same body
        exact called fewer (by omega) body
      have pieces := settles_pieces _ (settles_dispatch keeps deeper)
      induction whole using Node.induction_beneath with
      | step whole ih =>
          intro context fits
          obtain ⟨⟨enough, reached⟩, depth⟩ :=
            pieces.nodeWith whole trivial (runs shell room) ih context fits
          have opened : runs shell room none whole = nodeWith shell.limits.iterations
              (dispatch shell (call shell.limits (bodyRuns shell room none)))
              (runs shell room none) whole :=
            within_eq_nodeWith shell room whole
          rw [← opened] at reached depth
          refine ⟨⟨enough + 1, fun fuel plenty spent => ?_⟩, depth⟩
          cases fuel with
          | zero => omega
          | succ fuel => exact reached fuel (by omega) spent

end Walk

theorem Shell.within_enough (shell : Shell) (keeps : shell.registry.KeepsDepth shell.host)
    (room : Nat) (node : Node) (context : Context)
    (fits : shell.limits.recursion ≤ context.callDepth + room) :
    shell.within room node context = shell.walk node context := by
  obtain ⟨⟨enough, reached⟩, _⟩ := Walk.settles_runs shell keeps room node context fits
  obtain ⟨⟨plenty, settled⟩, _⟩ := Walk.settles_runs shell keeps shell.limits.recursion node context
    (Nat.le_add_left ..)
  exact (reached (max enough plenty) (Nat.le_max_left ..) default).symm.trans
    (settled (max enough plenty) (Nat.le_max_right ..) default)

namespace Walk

def Roomier (steps : Bool → Step) : Prop :=
  ∀ before, (∃ terminal, steps false before = .error ⟨.panicked overflowMessage, terminal⟩) ∨
    steps true before = steps false before

theorem roomier_shared (step : Step) : Roomier fun _ => step := fun _ => .inr rfl

theorem roomier_reads {α : Type} (read : Context → α) : Reads Roomier read :=
  fun _ holds before => holds (read before) before

theorem roomier_andThen (first second : Bool → Step) (here : Roomier first)
    (later : Roomier second) : Roomier fun run => (first run).andThen (second run) := by
  intro before
  rcases here before with ⟨terminal, full⟩ | same
  · exact .inl ⟨terminal, Step.andThen_of_error _ _ _ _ full⟩
  · cases ran : first false before with
    | error halt =>
        rw [ran] at same
        have failed := Step.andThen_of_error (first false) (second false) before halt ran
        exact .inr ((Step.andThen_of_error _ _ before halt same).trans failed.symm)
    | ok between =>
        rw [ran] at same
        have onward := Step.andThen_of_ok (first false) (second false) before between ran
        rcases later between with ⟨terminal, full⟩ | rest
        · exact .inl ⟨terminal, onward.trans full⟩
        · exact .inr ((Step.andThen_of_ok _ _ before between same).trans (rest.trans onward.symm))

theorem roomier_control : Control Roomier where
  skip := roomier_shared Step.skip
  andThen := roomier_andThen
  succeeded := roomier_reads _
  stops := roomier_reads _

theorem roomier_call (limits : Limits) (run : Bool → Node → Step)
    (inner : ∀ body, Roomier fun which => run which body) (name : String) (body : Node)
    (arguments : List String) : Roomier fun which => call limits (run which) name body arguments :=
  call_of_reads limits run name body arguments (roomier_reads _) (roomier_shared _)
    (roomier_control.called (roomier_reads _) arguments (roomier_shared _)
      (fun _ => roomier_shared _) (fun which => run which body) (inner body))

theorem roomier_node (shell : Shell) (run : Bool → Node → Step)
    (inner : ∀ body, Roomier fun which => run which body) (whole : Node) :
    Roomier fun which => node shell (call shell.limits (run which)) whole := by
  have pieces : Pieces Roomier (fun _ => True) (fun _ => shell.limits.iterations)
      (fun which => dispatch shell (call shell.limits (run which))) := by
    refine depth_conserved.lockstep roomier_control roomier_reads
      (fun step _ => roomier_shared step) (fun _ => rfl) popScope_depth _ _ ?_ ?_
    · intro untilTrue condition body checked repeated
      exact roomier_control.flow.rounds untilTrue _ condition body (roomier_shared _) checked
        repeated _
    · intro name arguments
      exact dispatch_of_reads (fun _ => shell) _ name arguments (roomier_reads _)
        (fun body => roomier_call shell.limits run inner name body arguments) (roomier_shared _)
  exact node_of_pieces (fun _ => shell) _ pieces whole trivial

theorem roomier_within (shell : Shell) (room : Nat) (whole : Node) :
    Roomier fun run => shell.within (if run then room + 1 else room) whole := by
  simp only [within_eq]
  induction room generalizing whole with
  | zero =>
      refine roomier_node shell (fun run => bodies shell (if run then 1 else 0)) ?_ whole
      exact fun body before => .inl ⟨before.terminal, rfl⟩
  | succ room ih =>
      refine roomier_node shell (fun run => bodies shell (if run then room + 2 else room + 1)) ?_
        whole
      intro body before
      simpa only [bodies, within_eq, if_true, Bool.false_eq_true, if_false] using ih body before

end Walk

-- An answer that does not come from a lack of room is the answer for all larger rooms.
theorem Shell.within_stable (shell : Shell) (fewer room : Nat) (more : fewer ≤ room) (node : Node)
    (context : Context) (reached : ∀ terminal,
      shell.within fewer node context ≠ .error ⟨.panicked Walk.overflowMessage, terminal⟩) :
    shell.within room node context = shell.within fewer node context := by
  induction more with
  | refl => rfl
  | step _ ih =>
      rcases Walk.roomier_within shell _ node context with ⟨terminal, full⟩ | same
      · exact absurd (ih.symm.trans full) (reached terminal)
      · exact same.trans ih

theorem walk_terminates :
    (∀ host, Registry.standard.KeepsDepth host) ∧
    ∀ shell : Shell, shell.registry.KeepsDepth shell.host → ∀ node context,
      ∃ enough, ∀ fuel, enough ≤ fuel → ∀ spent,
        Walk.fueled shell spent fuel node context = shell.walk node context := by
  refine ⟨Registry.standard_keepsDepth, fun shell keeps node context => ?_⟩
  exact (Walk.settles_runs shell keeps _ node context (Nat.le_add_left ..)).reached

theorem walk_terminates_recursive :
    let call := Node.ofCommand "f" [] []
    let node := Node.ofGroup [.ofFunction "f" call, call]
    let context := Context.start .simulate .empty false
    ∃ enough, ∀ fuel, enough ≤ fuel → ∀ spent,
      Walk.fueled (Shell.standard .void) spent fuel node context =
        (Shell.standard .void).walk node context :=
  walk_terminates.2 _ (walk_terminates.1 .void) _ _

end ShellWalk
