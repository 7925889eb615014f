import ShellWalk.Script.Machine

set_option autoImplicit false

namespace ShellWalk.Script.Program

inductive Fault where
  | absent
  | directory
  | closed

def Fault.reason : Fault → String
  | .absent => "No such file or directory"
  | .directory => "Is a directory"
  | .closed => "Bad file descriptor"

def contents (files : Files) (directory path : String) (input : Option (List Char)) :
    Except Fault (List Char) :=
  if path = "-" ∨ path = "/dev/stdin" then
    match input with
    | some text => .ok text
    | none => .error .closed
  else match files.entry? directory path with
    | some (.data text) => .ok text.toList
    | some .directory => .error .directory
    | some _ => .ok []
    | none => .error .absent

open Shell in
def cat (arguments : List String) : Shell Unit := do
  let operands := arguments.filter (· ≠ "-u")
  let sources := if operands.isEmpty then ["-"] else operands
  let isOpen := (← target? 0).isSome
  let input ← consume 0 fun text => (text, [])
  let process ← process
  let files := (← world).files
  setStatus 0
  let report (message : String) : Shell Unit := do
    writeError ("cat: " ++ message ++ "\n")
    setStatus 1
  sources.forM fun path => do
    match contents files process.directory path (if isOpen then some input else none) with
    | .ok text =>
        let _ ← write 1 (String.ofList text)
    | .error fault => report (path ++ ": " ++ fault.reason)
  if !isOpen && sources.contains "-" then
    report ("closing standard input: " ++ Fault.closed.reason)

def table : List (String × (List String → Shell Unit)) := [("cat", cat)]

def names : List String := "sh" :: table.map (·.1)

end ShellWalk.Script.Program
