import ShellWalk.Proofs.Sequences
import ShellWalk.Proofs.Temporary

set_option autoImplicit false

namespace ShellWalk

namespace Text

theorem segments_line (line rest : List Char) (unbroken : '\n' ∉ line) :
    segments (line ++ '\n' :: rest) = (line, (segments rest).1 :: (segments rest).2) := by
  induction line with
  | nil => rfl
  | cons c later ih =>
      have here : c ≠ '\n' := fun same => unbroken (same ▸ List.mem_cons_self ..)
      have there := ih fun member => unbroken (List.mem_cons_of_mem _ member)
      simp only [segments] at there ⊢
      rw [List.cons_append, List.foldr_cons, there, if_neg here]

theorem chomp_plain (line : List Char) (plain : '\r' ∉ line) : chomp line = line := by
  unfold chomp
  rw [if_neg fun last => plain (List.mem_of_getLast? last)]

theorem linesOf_line (text : String) (unbroken : '\n' ∉ text.toList) (plain : '\r' ∉ text.toList) :
    linesOf (String.ofList (text.toList ++ ['\n'])) = [text] := by
  have once : lines (text.toList ++ ['\n']) = [text.toList] := by
    rw [lines, segments_line text.toList [] unbroken]
    change chomp text.toList :: closeLines [] [] = _
    rw [chomp_plain text.toList plain]
    rfl
  simp [linesOf, once]

end Text

namespace Echo

def flagWords : List String := ["-n", "-e", "-E", "-ne", "-en"]

theorem printed_word (word : String) (plain : word ∉ flagWords) :
    printed [word] = ⟨word.toList, true⟩ := by
  simp only [flagWords, List.mem_cons, List.not_mem_nil, or_false, not_or] at plain
  obtain ⟨n, e, E, ne, en⟩ := plain
  have none : Flags.initial.add? word = none := by simp [Flags.add?, n, e, E, ne, en]
  have read : readFlags .initial [word] = (.initial, [word]) := by simp only [readFlags, none]
  simp only [printed, read]
  change Printed.mk (String.intercalate " " [word]).toList true = _
  simp

end Echo

theorem Registry.run_echo (host : Host) (word : String) (context : Context)
    (contained : context.mode ≠ .real) (plain : word ∉ Echo.flagWords)
    (unbroken : '\n' ∉ word.toList) (bare : '\r' ∉ word.toList) :
    standard.run host "echo" [word] context = .ok ((context.addOutput [word]).setExitCode 0) := by
  have handled :
      standard.run host "echo" [word] context = Echo.handler host "echo" [word] context := rfl
  have silent : Text.linesOf "" = [] := rfl
  rw [handled]
  simp only [Echo.handler, Echo.printed_word word plain, Echo.inLog, Context.write,
    if_neg contained, Completion.apply, Completion.success, Text.linesOf_line word unbroken bare,
    silent]
  simp [Context.addErrors, Context.addOutput]

namespace Shell

variable (shell : Shell) (source : Source) (word body : Node) (arguments : List Node)
  (context : Context)

theorem walk_bare : shell.walk (.command source (some word) arguments []) context =
    Walk.dispatch shell shell.call word.text (Node.expandAll arguments context) context := by
  rw [shell.walk_command]
  simp only [Walk.command, List.isEmpty_nil, if_true]

theorem walk_call (found : context.functions.get? word.text = some body) :
    shell.walk (.command source (some word) arguments []) context =
      shell.call word.text body (Node.expandAll arguments context) context := by
  rw [shell.walk_bare, Walk.dispatch, found]

theorem call_refused (name : String) (texts : List String)
    (deep : shell.limits.recursion ≤ context.callDepth) :
    shell.call name body texts context =
      .ok ((context.addErrors [nestingMessage name shell.limits.recursion]).setExitCode 1) :=
  if_pos deep

theorem call_entered (keeps : shell.registry.KeepsDepth shell.host) (name : String)
    (texts : List String) (after : Context) (shallow : context.callDepth < shell.limits.recursion)
    (ran : shell.walk body (context.enterCall texts) = .ok after) :
    shell.call name body texts context = .ok (after.leaveCall context.positional) := by
  rw [call_eq keeps, Walk.call, if_neg (by omega)]
  exact Step.andThen_of_ok (fun outer => shell.walk body (outer.enterCall texts))
    (fun after => .ok (after.leaveCall context.positional)) context after ran

end Shell

theorem Shell.walk_printing (host : Host) (limits : Limits) (whole printing calling text : Source)
    (echo self : Node) (arguments : List Node) (context : Context) (named : echo.text = "echo")
    (plain : text.text ∉ Echo.flagWords) (unbroken : '\n' ∉ text.text.toList)
    (bare : '\r' ∉ text.text.toList) (contained : context.mode ≠ .real)
    (builtin : context.functions.get? "echo" = none) :
    Shell.walk ⟨host, .standard, limits⟩ (.group .compound whole
      [.command printing (some echo) [.leaf .word text] [],
        .command calling (some self) arguments []]) context =
    Shell.walk ⟨host, .standard, limits⟩ (.command calling (some self) arguments [])
      ((context.addOutput [text.text]).setExitCode 0) := by
  have expanded : Node.expandAll [.leaf .word text] context = [text.text] := by
    simp [Node.expandAll, Node.expand, Node.expandWith, LeafKind.expand]
  have printed : Shell.walk ⟨host, .standard, limits⟩
      (.command printing (some echo) [.leaf .word text] []) context =
        .ok ((context.addOutput [text.text]).setExitCode 0) := by
    rw [Shell.walk_bare, Walk.dispatch, named, builtin, expanded]
    exact Walk.handle_of_run _ _ _ _ _
      (Registry.run_echo host text.text context contained plain unbroken bare)
  have alive : ((context.addOutput [text.text]).setExitCode 0).stops = false := by
    simp [Context.stops, Context.succeeded, Context.setExitCode]
  unfold Shell.walk
  rw [Shell.within_group, ← Shell.sequence_single _ _ (.command calling (some self) arguments [])]
  exact Step.followed_of_alive _ _ context _ printed alive

theorem runaway_recursion_cut_off (host : Host) (limits : Limits)
    (place whole printing calling text : Source) (word echo self : Node)
    (arguments inner : List Node) (context : Context) (contained : context.mode ≠ .real)
    (shallow : context.callDepth ≤ limits.recursion) (named : echo.text = "echo")
    (again : self.text = word.text) (builtin : context.functions.get? "echo" = none)
    (stored : context.functions.get? word.text = some (.group .compound whole
      [.command printing (some echo) [.leaf .word text] [],
        .command calling (some self) inner []]))
    (plain : text.text ∉ ["-n", "-e", "-E", "-ne", "-en"]) (unbroken : '\n' ∉ text.text.toList)
    (bare : '\r' ∉ text.text.toList) :
    Shell.walk ⟨host, .standard, limits⟩ (.command place (some word) arguments []) context =
      .ok { context with
        output := context.output ++ List.replicate (limits.recursion - context.callDepth) text.text
        errors := context.errors ++ [word.text ++ ": maximum function nesting level exceeded (" ++
          toString limits.recursion ++ ")"]
        exitCode := 1 } := by
  generalize remaining : limits.recursion - context.callDepth = left
  -- The induction is on the calls that are left. On the way back only the parameters and the depth
  -- have to be undone, for the refused call has set the exit code already.
  induction left generalizing place word arguments context with
  | zero =>
      have deep : limits.recursion ≤ context.callDepth := by omega
      rw [Shell.walk_call _ _ _ _ _ _ stored, Shell.call_refused _ _ _ _ _ deep]
      simp [Context.addErrors, Context.setExitCode, nestingMessage]
  | succ left ih =>
      have allowed : context.callDepth < limits.recursion := by omega
      have fewer : limits.recursion - (context.callDepth + 1) = left := by omega
      let entered := context.enterCall (Node.expandAll arguments context)
      have descends := Shell.walk_printing host limits whole printing calling text echo self inner
        entered named plain unbroken bare contained builtin
      have returned := ih calling self inner ((entered.addOutput [text.text]).setExitCode 0)
        contained allowed rfl builtin (by rw [again]; exact stored) fewer
      rw [Shell.walk_call _ _ _ _ _ _ stored,
        Shell.call_entered _ _ context (Registry.standard_keepsDepth host) _ _ _ allowed
          (descends.trans returned)]
      simp [entered, again, Context.enterCall, Context.leaveCall, Context.addOutput,
        Context.setExitCode, List.replicate_succ]

theorem runaway_recursion_cut_off_nested :
    let body := Node.ofGroup [.ofCommand "echo" [.ofWord "deep"] [],
      .ofCommand "f" [.ofVariable "1"] []]
    let context := ((Context.start .capture .empty true).define "f" body).enterCall ["p"]
    ∃ after, Shell.walk ⟨.void, .standard, ⟨1, 3⟩⟩ (.ofCommand "f" [.ofWord "q"] []) context =
        .ok after ∧ after.output = ["deep", "deep"] ∧
      after.errors = ["f: maximum function nesting level exceeded (3)"] ∧ after.exitCode = 1 ∧
      after.positional = ["p"] ∧ after.callDepth = 1 := by
  intro body context
  have cut := runaway_recursion_cut_off .void ⟨1, 3⟩ (.ofText "f") (.ofText "") (.ofText "echo")
    (.ofText "f") (.ofText "deep") (.leaf .commandName (.ofText "f"))
    (.leaf .commandName (.ofText "echo")) (.leaf .commandName (.ofText "f")) [.ofWord "q"]
    [.ofVariable "1"] context (by decide) (by decide) rfl rfl rfl rfl (by decide) (by decide)
    (by decide)
  exact ⟨_, cut, rfl, by decide, rfl, rfl, rfl⟩

end ShellWalk
