import ShellWalk.Script.Builtin

set_option autoImplicit false

namespace ShellWalk.Script

open Shell

inductive Kind where
  | function (body : Command)
  | builtin
  | program (path name : String)
  | forbidden
  | directory
  | unknown

def pathDirectories : Shell (List String) := do
  return (splitAt ':' ((← getVariable "PATH").getD "").toList).map String.ofList

def programAt? (files : Files) (directory path : String) : Option Kind :=
  match files.entry? directory path with
  | some .program =>
      let full := fullPath directory path
      some (.program full (String.ofList ((components full.toList).getLastD [])))
  | _ => none

def searchedPaths (name : String) : Shell (List String) := do
  return (← pathDirectories).map fun place => if place = "" then name else place ++ "/" ++ name

def findProgram (name : String) : Shell (Option (String × Kind)) := do
  let files := (← world).files
  let directory := (← process).directory
  return (← searchedPaths name).findSome? fun path =>
    (programAt? files directory path).map fun kind => (path, kind)

def programKind (name : String) : Shell Kind := do
  match ← findProgram name with
  | some (_, kind) => return kind
  | none =>
      let files := (← world).files
      let directory := (← process).directory
      if (← searchedPaths name).any fun path => files.entry? directory path = some .directory then
        return .directory
      else return .unknown

def kindOf (name : String) (functions : Bool) : Shell Kind := do
  let files := (← world).files
  let process ← process
  let directory := process.directory
  if name.toList.contains '/' then
    match programAt? files directory name with
    | some kind => return kind
    | none => return if (files.entry? directory name).isSome then .forbidden else .unknown
  else
    match if functions then process.functions.get? name else none with
    | some body => return .function body
    | none =>
        if Builtin.isBuiltin name then return .builtin
        else programKind name

def description (inWords : Bool) (name : String) : Shell (Option String) := do
  let process ← process
  let say (long short : String) : Option String :=
    some (if inWords then name ++ long else short)
  if keywords.contains name then return say " is a shell keyword" name
  match process.aliases.get? name with
  | some value =>
      return say (" is an alias for " ++ value) ("alias " ++ name ++ "=" ++ Builtin.quoted value)
  | none =>
      match ← kindOf name true with
      | .function _ => return say " is a shell function" name
      | .builtin =>
          return say (if Builtin.isSpecial name then " is a special shell builtin"
            else " is a shell builtin") name
      | .program _ _ =>
          if name.toList.contains '/' then return say (" is " ++ name) name
          else
            let path := ((← findProgram name).map (·.1)).getD name
            return say (" is " ++ path) path
      | .forbidden => return say (" is " ++ name) name
      | .directory | .unknown => return none

def describe (command : String) (inWords : Bool) (names : List String) : Shell Unit := do
  setStatus 0
  names.forM fun name => do
    match ← description inWords name with
    | some text => Builtin.say command (text ++ "\n")
    | none =>
        if inWords then Builtin.say command (name ++ ": not found\n")
        setStatus 127

end ShellWalk.Script
