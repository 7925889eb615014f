import ShellWalk.Node.OfText
import ShellWalk.Proofs.Changes
import ShellWalk.Proofs.Frame

set_option autoImplicit false

namespace ShellWalk

namespace Node

def invoked? : Node → Option String
  | .command _ (some name) _ _ => some name.text
  | _ => none

def Invokes (whole : Node) (name : String) : Prop :=
  ∃ inner, Inside inner whole ∧ inner.invoked? = some name

def Binds (whole : Node) (name : String) (body : Node) : Prop :=
  ∃ source word, Inside (.function source (some word) (some body)) whole ∧ word.text = name

theorem binds_inside (whole : Node) (name : String) (body : Node) (bound : whole.Binds name body) :
    Inside body whole := by
  obtain ⟨source, word, inside, _⟩ := bound
  have part : body ∈ (Node.function source (some word) (some body)).parts := by simp [parts]
  exact inside_trans body _ whole (.part _ body part .self) inside

theorem invokes_iff (whole : Node) (name : String) : whole.Invokes name ↔
    whole.invoked? = some name ∨ ∃ part ∈ whole.parts, part.Invokes name :=
  exists_inside_iff whole

@[simp] theorem invokes_leaf (kind : LeafKind) (source : Source) (name : String) :
    ¬ (Node.leaf kind source).Invokes name := by
  rw [invokes_iff]
  simp [invoked?, parts]

@[simp] theorem invokes_ofAssignment (bound name : String) (value : Node) :
    (ofAssignment bound value).Invokes name ↔ value.Invokes name := by
  rw [invokes_iff]
  simp [ofAssignment, ofName, invoked?, parts]

@[simp] theorem invokes_ofCommand (command name : String) (arguments assignments : List Node) :
    (ofCommand command arguments assignments).Invokes name ↔
      command = name ∨ ∃ part ∈ arguments ++ assignments, part.Invokes name := by
  rw [invokes_iff]
  simp [ofCommand, invoked?, parts, text, source, Source.ofText]

@[simp] theorem invokes_ofFunction (function name : String) (body : Node) :
    (ofFunction function body).Invokes name ↔ body.Invokes name := by
  rw [invokes_iff]
  simp [ofFunction, ofWord, invoked?, parts]

@[simp] theorem invokes_ofGroup (name : String) (children : List Node) :
    (ofGroup children).Invokes name ↔ ∃ child ∈ children, child.Invokes name := by
  rw [invokes_iff]
  simp [ofGroup, invoked?, parts]

end Node

def Context.DefinedIn (program : Node) (context : Context) : Prop :=
  ∀ entry ∈ context.functions.entries, program.Binds entry.1 entry.2

namespace Registry

def KeepsFunctions (registry : Registry) (host : Host) : Prop :=
  ∀ name handler, registry.handlers.get? name = some handler →
    ∀ arguments before after, handler host name arguments before = .ok after →
      after.functions = before.functions

theorem run_functions (registry : Registry) (host : Host) (keeps : registry.KeepsFunctions host)
    (name : String) (arguments : List String) (before after : Context)
    (done : registry.run host name arguments before = .ok after) :
    after.functions = before.functions :=
  registry.run_of_handlers host keeps (fun name arguments before =>
    (fallback_untouched host name arguments before).functions) name arguments before after done

theorem standard_keepsFunctions (host : Host) : standard.KeepsFunctions host := by
  intro name handler found arguments before after done
  exact (standard_wellBehaved host name handler found arguments before after done).functions

theorem standard_hosts (first second : Host) (files : first.fileTest = second.fileTest)
    (name : String) (started : first.spawn name = second.spawn name) (arguments : List String)
    (context : Context) :
    standard.run first name arguments context = standard.run second name arguments context := by
  unfold run
  cases found : standard.handlers.get? name with
  | none => simp only [fallback, Host.runProgram, started]
  | some handler =>
      obtain ⟨completion, text, finishes, _⟩ := standard_regular name handler found
      simp only [finishes, files]

end Registry

namespace Walk

variable {program : Node} {host : Bool → Host} {registry : Bool → Registry} {limits : Limits}

theorem written_handle (keeps : (registry false).KeepsFunctions (host false)) (name : String)
    (same : ∀ arguments context, (registry true).run (host true) name arguments context =
      (registry false).run (host false) name arguments context) (arguments : List String) :
    InStep (Context.DefinedIn program) fun run =>
      handle ⟨host run, registry run, limits⟩ name arguments := by
  constructor
  · intro before _
    simp only [handle, same]
  · intro before after defined done
    have kept := (registry false).run_functions (host false) keeps name arguments before after
      (handle_ok _ name arguments before after done)
    intro entry member
    exact defined entry (kept ▸ member)

theorem written_dispatch (keeps : (registry false).KeepsFunctions (host false))
    (call : Bool → Calling)
    (calls : ∀ name body arguments, Node.Inside body program →
      InStep (Context.DefinedIn program) fun run => call run name body arguments) (name : String)
    (same : ∀ arguments context, (registry true).run (host true) name arguments context =
      (registry false).run (host false) name arguments context) (arguments : List String) :
    InStep (Context.DefinedIn program) fun run =>
      dispatch ⟨host run, registry run, limits⟩ (call run) name arguments := by
  refine InStep.pointwise _ fun before defined => ?_
  cases found : before.functions.get? name with
  | some body =>
      -- A body that the table has is one of the script, and so are the commands in it.
      have bound := defined (name, body) (Table.find_mem name body _ found)
      have inside := Node.binds_inside program name body bound
      refine ⟨fun run => call run name body arguments, calls name body arguments inside, ?_⟩
      intro run
      simp only [dispatch, found]
  | none =>
      refine ⟨fun run => handle ⟨host run, registry run, limits⟩ name arguments,
        written_handle keeps name same arguments, ?_⟩
      intro run
      simp only [dispatch, found]

theorem written_changes (program : Node) :
    Changes (InStep (Context.DefinedIn program)) fun node => Node.Inside node program := by
  refine InStep.changes ?_ (fun _ _ defined => defined) (fun _ _ _ defined => defined) ?_
    (fun _ _ defined => defined) fun _ _ defined => defined
  · intro whole part inside member
    have below := Node.beneath_inside part whole (Node.beneath_executed part whole member)
    exact Node.inside_trans part whole program below inside
  · intro source name body inside context defined entry member
    rcases Table.mem_put name.text body context.functions.entries entry member with rfl | before
    · exact ⟨source, name, inside, rfl⟩
    · exact defined entry before

theorem written_within (program : Node) (host : Bool → Host) (registry : Bool → Registry)
    (limits : Limits) (keeps : (registry false).KeepsFunctions (host false))
    (same : ∀ name, program.Invokes name → ∀ arguments context,
      (registry true).run (host true) name arguments context =
        (registry false).run (host false) name arguments context) (room : Nat) :
    InStep (Context.DefinedIn program) fun run =>
      Shell.within ⟨host run, registry run, limits⟩ room program := by
  refine (written_changes program).within host registry limits ?_ room program .self
  intro call calls source name arguments assignments inside texts
  exact written_dispatch keeps call calls name.text (same name.text ⟨_, inside, rfl⟩) texts

end Walk

theorem Options.start_definedIn (program : Node) (options : Options) :
    options.start.DefinedIn program :=
  fun entry member => by cases member

theorem only_written_commands_run (program : Node) :
    (∀ (host : Host) (limits : Limits) (first second : Registry), first.KeepsFunctions host →
      second.KeepsFunctions host →
      (∀ name, program.Invokes name → first.handlers.get? name = second.handlers.get? name) →
      ∀ (room : Nat) (options : Options),
        Shell.within ⟨host, first, limits⟩ room program options.start =
          Shell.within ⟨host, second, limits⟩ room program options.start) ∧
    (∀ (first second : Host) (limits : Limits), first.fileTest = second.fileTest →
      (∀ name, program.Invokes name → first.spawn name = second.spawn name) →
      ∀ options, Shell.run ⟨first, .standard, limits⟩ program options =
        Shell.run ⟨second, .standard, limits⟩ program options) ∧
    ∀ (host : Host) (limits : Limits) (registry : Registry), registry.KeepsFunctions host →
      ∀ (room : Nat) (options : Options) (result : Context),
        Shell.within ⟨host, registry, limits⟩ room program options.start = .ok result →
          ∀ entry ∈ result.functions.entries, program.Binds entry.1 entry.2 := by
  refine ⟨?_, ?_, ?_⟩
  · intro host limits first second _ keeps alike room options
    have written := Walk.written_within program (fun _ => host)
      (fun run => if run then first else second) limits keeps (by
        intro name invoked arguments context
        simp only [if_true, Bool.false_eq_true, if_false, Registry.run, alike name invoked]) room
    exact written.same options.start (options.start_definedIn program)
  · intro first second limits files started options
    have written := Walk.written_within program (fun run => if run then first else second)
      (fun _ => .standard) limits (Registry.standard_keepsFunctions second) (by
        intro name invoked arguments context
        exact Registry.standard_hosts first second files name (started name invoked) arguments
          context) limits.recursion
    exact written.same options.start (options.start_definedIn program)
  · intro host limits registry keeps room options result done
    have written := Walk.written_within program (fun _ => host) (fun _ => registry) limits keeps
      (fun _ _ _ _ => rfl) room
    exact written.kept options.start result (options.start_definedIn program) done

theorem only_written_commands_run_unexpanded :
    let program := Node.ofGroup [.ofFunction "f" (.ofCommand "$CMD" [] []),
      .ofCommand "f" [] [.ofAssignment "CMD" (.ofWord "rm")]]
    let armed := Registry.standard.register "rm" fun _ _ _ _ => .error "removed"
    Shell.run ⟨.void, armed, .standard⟩ program .standard =
        Shell.run ⟨.void, .standard, .standard⟩ program .standard ∧
      ∃ result, Shell.run ⟨.void, .standard, .standard⟩ program .standard = .ok result ∧
        result.errors = ["$CMD: command not found"] ∧
        ∀ entry ∈ result.functions.entries, program.Binds entry.1 entry.2 := by
  intro program armed
  have named : ∀ name, program.Invokes name → name = "$CMD" ∨ name = "f" := by
    intro name invoked
    have spelled : "$CMD" = name ∨ "f" = name := by
      simpa [program, Node.ofWord] using invoked
    exact spelled.imp Eq.symm Eq.symm
  have keeps : armed.KeepsFunctions .void := by
    intro name handler found arguments before after done
    rcases Table.get?_insert_or _ "rm" name _ handler found with ⟨_, rfl⟩ | standard
    · cases done
    · exact Registry.standard_keepsFunctions .void name handler standard arguments before after done
  have alike : ∀ name, program.Invokes name →
      armed.handlers.get? name = Registry.standard.handlers.get? name := by
    intro name invoked
    refine Table.get?_insert_other _ "rm" name _ ?_
    rcases named name invoked with rfl | rfl <;> decide
  obtain ⟨exchanged, _, bound⟩ := only_written_commands_run program
  have finished : ∃ result, Shell.run ⟨.void, .standard, .standard⟩ program .standard = .ok result ∧
      result.errors = ["$CMD: command not found"] := ⟨_, rfl, rfl⟩
  obtain ⟨result, done, errors⟩ := finished
  refine ⟨exchanged .void .standard armed .standard keeps
    (Registry.standard_keepsFunctions .void) alike 100 .standard, result, done, errors, ?_⟩
  exact bound .void .standard .standard (Registry.standard_keepsFunctions .void) 100 .standard
    result done

end ShellWalk
