import ShellWalk.Host
import ShellWalk.Script.Run

set_option autoImplicit false

namespace ShellWalk.Host

def workingDirectory : String := "/work"

def programDirectories : List String := ["/bin", "/usr/bin"]

def bareFiles : Script.Files :=
  let directories := ["/", "/dev", "/etc", "/home", "/opt", "/root", "/tmp", "/usr", "/var",
    workingDirectory] ++ programDirectories
  let programs := programDirectories.flatMap fun directory =>
    Script.Program.names.map fun name => directory ++ "/" ++ name
  .ofList (directories.map (·, .directory) ++ programs.map (·, .program) ++
    [("/dev/null", .device)])

def homeDirectory : String := "/root"

def searchPath : String := "/usr/local/sbin:/usr/local/bin:/usr/sbin:/usr/bin:/sbin:/bin"

def ownEnvironment : Table String := .ofList [("HOME", homeDirectory), ("PATH", searchPath)]

def findProgram? (name : String) (environment : Table String) : Option String :=
  let paths := if name.toList.contains '/' then [name]
    else (Script.splitAt ':' ((environment.get? "PATH").getD "").toList).map fun place =>
      if place = [] then name else String.ofList place ++ "/" ++ name
  paths.findSome? fun path =>
    if bareFiles.entry? workingDirectory path = some .program then
      (Script.components path.toList).getLast?.map String.ofList
    else none

def entryAt? (path : String) : Option Script.Entry := bareFiles.entry? workingDirectory path

def bare : Host where
  pathExists := fun path => (entryAt? path).isSome
  isFile := fun path => (entryAt? path).any Script.Condition.isPlain
  isDirectory := fun path => (entryAt? path).any Script.Entry.isDirectory
  spawn := fun program arguments environment =>
    let visible := ownEnvironment.insertAll environment.entries
    if findProgram? program visible = some "sh" then
      some (Script.complete bareFiles workingDirectory program arguments visible)
    else none

end ShellWalk.Host
