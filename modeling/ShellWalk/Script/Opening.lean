import ShellWalk.Script.Expansion

set_option autoImplicit false

namespace ShellWalk.Script

open Shell Expansion

inductive Opening where
  | path (descriptor : Nat) (access : Access) (path : String)
  | duplicate (descriptor source : Nat)
  | close (descriptor : Nat)
  | text (descriptor : Nat) (text : String)

def badSource : Shell Opening := do
  setLine (← process).place
  fail "Syntax error: Bad fd number"

def sourceOf (descriptor : Nat) (word : String) : Shell Opening :=
  match word.toList with
  | ['-'] => return .close descriptor
  | [c] =>
      if c.isDigit then return .duplicate descriptor (c.toNat - '0'.toNat) else badSource
  | _ => badSource

def opening (eval : Eval) : Redirect → Shell Opening
  | .path descriptor access word => do
      return .path descriptor access (← wordText eval word)
  | .duplicate descriptor word => do sourceOf descriptor (← wordText eval word)
  | .document descriptor number => do
      let document := ((← process).documents[number]?).getD []
      return .text descriptor (← documentText eval document)

def stream? (path : String) : Option Nat :=
  if path = "/dev/stdin" then some 0
  else if path = "/dev/stdout" then some 1
  else if path = "/dev/stderr" then some 2
  else none

def createFile (path text : String) : Shell Unit :=
  modifyWorld fun world => { world with files := world.files.insert path (.data text) }

def openPath (access : Access) (path : String) : Shell (Except String Target) := do
  let world ← world
  let directory := (← process).directory
  let full := fullPath directory path
  let found := world.files.entry? directory path
  let reading := access = .read
  match found with
  | some .device => return .ok .null
  | some .directory =>
      if reading then return .ok .null
      else return .error ("cannot create " ++ path ++ ": Is a directory")
  | some .program => return .ok .null
  | some (.data text) =>
      match access with
      | .read | .readWrite => return .ok (← newPipe text)
      | .append => return .ok (.file full)
      | .overwrite =>
          createFile full ""
          return .ok (.file full)
      | .write =>
          if ← isOn 'C' then return .error ("cannot create " ++ path ++ ": File exists")
          else
            createFile full ""
            return .ok (.file full)
  | none =>
      if reading then return .error ("cannot open " ++ path ++ ": No such file")
      else if path ≠ "" ∧ world.files.parentExists directory path then
        createFile full ""
        return .ok (.file full)
      else return .error ("cannot create " ++ path ++ ": Directory nonexistent")

def connectOpening : Opening → Shell Bool
  | .close descriptor => do
      connect descriptor none
      return true
  | .text descriptor text => do
      connect descriptor (some (← newPipe text))
      return true
  | .duplicate descriptor source => do
      match ← target? source with
      | some target =>
          connect descriptor (some target)
          return true
      | none =>
          complain (toString source ++ ": Bad file descriptor")
          return false
  | .path descriptor access path => do
      match ← (match stream? path with
        | some source => do
            match ← target? source with
            | some target => return .ok target
            | none => return .error ("cannot open " ++ path ++ ": No such file")
        | none => openPath access path) with
      | .ok target =>
          connect descriptor (some target)
          return true
      | .error message =>
          complain message
          return false

def connectAll : List Opening → Shell Bool
  | [] => return true
  | first :: rest => do if ← connectOpening first then connectAll rest else return false

end ShellWalk.Script
