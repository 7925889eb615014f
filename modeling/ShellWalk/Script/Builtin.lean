import ShellWalk.Script.Builtin.Basic

set_option autoImplicit false

namespace ShellWalk.Script.Builtin

open Shell

def assign (word value : String) : Shell Unit := do
  let (name, _) ← declaration word
  setVariable name value

def listed (command : String) (shown : Binding → Bool) : Shell String := do
  let found := (← process).bindings.entries.filter fun entry => shown entry.2
  let sorted := found.mergeSort fun a b => a.1 ≤ b.1
  return String.join (sorted.map fun (name, binding) =>
    command ++ name ++ binding.value.elim "" (fun value => "=" ++ quoted value) ++ "\n")

def mark (command : String) (isMarked : Binding → Bool) (add : Binding → Binding)
    (arguments : List String) : Shell Unit := do
  let (found, words) ← letters ['p'] arguments
  if words.isEmpty || found.contains 'p' then
    answer command (← listed (command ++ " ") isMarked)
  else
    words.forM fun word => do
      let (name, value) ← declaration word
      match value with
      | some text => setVariable name text
      | none => pure ()
      bind name (add (← binding name))
    setStatus 0

def unset (arguments : List String) : Shell Unit := do
  let (found, words) ← letters ['v', 'f'] arguments
  if found.getLast? = some 'f' then
    modifyProcess fun process =>
      { process with functions := words.foldl Table.erase process.functions }
  else
    words.forM fun word => do
      let (name, _) ← declaration word
      if (← binding name).fixed then fail (name ++ ": is read only")
      restore name none
  setStatus 0

def hide (name : String) : Shell Unit :=
  modifyProcess fun process =>
    { process with
      frames := process.frames.modifyHead fun frame => (name, process.bindings.get? name) :: frame }

def declareLocal (arguments : List String) : Shell Unit := do
  if (← process).frames.isEmpty then fail "not in a function"
  arguments.forM fun word => do
    let (name, value) ← declaration word
    hide name
    match value with
    | some text => setVariable name text
    | none => pure ()
  setStatus 0

def leaveFrame : Shell Unit := do
  let process ← process
  modifyProcess fun process => { process with frames := process.frames.tail }
  restoreAll (process.frames.headD [])

def optionNames : List (String × Char) :=
  [("errexit", 'e'), ("noglob", 'f'), ("ignoreeof", 'I'), ("interactive", 'i'), ("monitor", 'm'),
    ("noexec", 'n'), ("stdin", 's'), ("xtrace", 'x'), ("verbose", 'v'), ("vi", 'V'),
    ("emacs", 'E'), ("noclobber", 'C'), ("allexport", 'a'), ("notify", 'b'), ("nounset", 'u'),
    ("privileged", 'p'), ("nolog", ' '), ("debug", ' ')]

def switch (on : Bool) (option : Char) : Shell Unit :=
  modifyProcess fun process =>
    let others := process.options.filter (· ≠ option)
    { process with options := if on then option :: others else others }

def switchLetter (on : Bool) (option : Char) : Shell Unit := do
  if optionLetters.contains option then switch on option
  else fail ("Illegal option -" ++ String.ofList [option])

def switchName (on : Bool) (name : String) : Shell Unit :=
  match optionNames.lookup name with
  | some option => switch on option
  | none => fail ("Illegal option " ++ (if on then "-" else "+") ++ "o " ++ name)

structure Remaining where
  words : List String
  ended : Bool
  script : Bool

def optionWord (on commandLine : Bool) : List Char → Remaining → Shell Remaining
  | [], remaining => return remaining
  | 'o' :: rest, remaining => do
      match remaining.words with
      | [] => pure ()
      | name :: _ => switchName on name
      optionWord on commandLine rest { remaining with words := remaining.words.tail }
  | c :: rest, remaining => do
      if c = 'c' && commandLine then
        optionWord on commandLine rest { remaining with script := true }
      else if c = 'l' && commandLine then optionWord on commandLine rest remaining
      else
        switchLetter on c
        optionWord on commandLine rest remaining

def optionWords (commandLine : Bool) : Nat → Remaining → Shell Remaining
  | 0, remaining => return remaining
  | fuel + 1, remaining =>
      match remaining.words with
      | [] => return remaining
      | word :: rest =>
          match word.toList with
          | ['-'] => do
              if !commandLine then
                switch false 'x'
                switch false 'v'
              return { remaining with words := rest }
          | ['-', '-'] => return { remaining with words := rest, ended := true }
          | '-' :: found => do
              optionWords commandLine fuel
                (← optionWord true commandLine found { remaining with words := rest })
          | '+' :: found => do
              optionWords commandLine fuel
                (← optionWord false commandLine found { remaining with words := rest })
          | _ => return remaining

def readOptions (commandLine : Bool) (words : List String) : Shell Remaining :=
  optionWords commandLine words.length ⟨words, false, false⟩

def setArguments (arguments : List String) : Shell Unit :=
  modifyProcess fun process => { process with arguments }

def set (arguments : List String) : Shell Unit := do
  if arguments.isEmpty then
    answer "set" (← listed "" fun binding => binding.value.isSome)
  else
    setStatus 0
    let remaining ← readOptions false arguments
    if !remaining.words.isEmpty || remaining.ended then setArguments remaining.words

def shift (arguments : List String) : Shell Unit := do
  let count ← match arguments with
    | [] => pure 1
    | word :: _ => number word
  let current := (← process).arguments
  if current.length < count then fail "can't shift that many"
  setArguments (current.drop count)
  setStatus 0

def statusOr (arguments : List String) : Shell Unit := do
  match arguments with
  | [] => return
  | word :: _ => setStatus (← number word)

def exit (arguments : List String) : Shell Unit := do
  statusOr arguments
  throw .exit

def leaveFunction (arguments : List String) : Shell Unit := do
  statusOr arguments
  throw .leaveFunction

def leaveLoops (again : Bool) (arguments : List String) : Shell Unit := do
  let count ← match arguments with
    | [] => pure 1
    | word :: _ => number word
  if count = 0 then fail ("Illegal number: " ++ arguments.headD "")
  setStatus 0
  let loops := (← process).loops
  if 0 < loops then throw (.leaveLoops (min count loops) again)

def enter (directory : String) : Shell Unit := do
  let old := (← process).directory
  modifyProcess fun process => { process with directory }
  bind "OLDPWD" ⟨some old, true, false⟩
  bind "PWD" ⟨some directory, true, false⟩

def keepsTwoSlashes (path : String) : Bool := path.toList.takeWhile (· = '/') = ['/', '/']

def changeDirectory (arguments : List String) : Shell Unit := do
  let (_, words) ← letters ['L', 'P'] arguments
  let wanted ← match words with
    | [] => pure ((← getVariable "HOME").getD "")
    | "-" :: _ => pure ((← getVariable "OLDPWD").getD "")
    | word :: _ => pure word
  let directory := fullPath (← process).directory wanted
  match (← world).files.get? directory with
  | some .directory =>
      enter (if keepsTwoSlashes wanted then "/" ++ directory else directory)
      answer "cd" (if words.head? = some "-" then directory ++ "\n" else "")
  | _ => fail ("can't cd to " ++ wanted)

def printDirectory (arguments : List String) : Shell Unit := do
  let _ ← letters ['L', 'P'] arguments
  answer "pwd" ((← process).directory ++ "\n")

def seam : Glyph := ⟨Char.ofNat 0, true⟩

def inputLine (raw : Bool) : List Char → (List Glyph × Bool) × List Char
  | [] => (([], false), [])
  | '\n' :: rest => (([], true), rest)
  | '\x00' :: rest => inputLine raw rest
  | '\\' :: next :: rest =>
      if raw then
        let ((line, ended), remaining) := inputLine raw (next :: rest)
        ((⟨'\\', false⟩ :: line, ended), remaining)
      else
        let ((line, ended), remaining) := inputLine raw rest
        (((if next = '\n' then seam else ⟨next, true⟩) :: line, ended), remaining)
  | ['\\'] => ((if raw then [⟨'\\', false⟩] else [], false), [])
  | c :: rest =>
      let ((line, ended), remaining) := inputLine raw rest
      ((⟨c, false⟩ :: line, ended), remaining)

def separates (separators : List Char) (glyph : Glyph) : Bool :=
  !glyph.quoted && separators.contains glyph.char

def isLead (separators : List Char) (glyph : Glyph) : Bool :=
  glyph = seam || (separates separators glyph && isBlank glyph.char)

def firstField (separators : List Char) (line : List Glyph) : List Glyph × List Glyph :=
  let field := line.takeWhile fun glyph => !separates separators glyph
  let rest := (line.drop field.length).dropWhile fun glyph =>
    separates separators glyph && isBlank glyph.char
  let others := if rest.head?.any (separates separators) then rest.tail else rest
  (field, others.dropWhile (isLead separators))

-- Where the last field of a line is cut off, looking on from a place behind its first separator.
-- Separators at the end go away: blanks, and one other that is the first or follows blanks alone.
-- Characters behind a backslash do not count against an earlier place.
def cutPlace (separators : List Char) (place : Nat) (cut : Option Nat) (afterBlank : Bool) :
    List Glyph → Option Nat
  | [] => cut
  | glyph :: rest =>
      if glyph.quoted then cutPlace separators (place + 1) cut false rest
      else if separators.contains glyph.char then
        if isBlank glyph.char then
          cutPlace separators (place + 1) (cut.or (some place)) afterBlank rest
        else cutPlace separators (place + 1) (if afterBlank then cut else none) false rest
      else cutPlace separators (place + 1) none false rest

def lastField (separators : List Char) (line : List Glyph) : List Glyph :=
  let field := line.takeWhile fun glyph => glyph.quoted || !separators.contains glyph.char
  match line.drop field.length with
  | [] => field
  | first :: rest =>
      match cutPlace separators (field.length + 1) (some field.length) (isBlank first.char) rest with
      | some place => line.take place
      | none => line

def distribute (separators : List Char) : List String → List Glyph → List (String × List Glyph)
  | [], _ => []
  | [name], line => [(name, lastField separators line)]
  | name :: rest, line =>
      let (field, remaining) := firstField separators line
      (name, field) :: distribute separators rest remaining

def read (arguments : List String) : Shell Unit := do
  let (raw, words) ← match arguments with
    | "-p" :: _ :: rest => pure (false, rest)
    | "-r" :: "-p" :: _ :: rest => pure (true, rest)
    | words =>
        let (found, names) ← letters ['r'] words
        pure (found.contains 'r', names)
  if words.isEmpty then fail "arg count"
  let (line, ended) ← consume 0 (inputLine raw)
  let separators ← separators
  (distribute separators words (line.dropWhile (isLead separators))).forM fun (name, field) =>
    assign name (String.ofList (Pattern.text (field.filter (· ≠ seam))))
  setStatus (if ended then 0 else 1)

def aliasText (name value : String) : String := name ++ "=" ++ quoted value ++ "\n"

def showAlias (word : String) : Shell Unit := do
  match (← process).aliases.get? word with
  | some value => say "alias" (aliasText word value)
  | none =>
      writeError ("alias: " ++ word ++ " not found\n")
      setStatus 1

def defineAliases (arguments : List String) : Shell Unit := do
  setStatus 0
  if arguments.isEmpty then
    let sorted := (← process).aliases.entries.mergeSort fun a b => a.1 ≤ b.1
    say "alias" (String.join (sorted.map fun (name, value) => aliasText name value))
  arguments.forM fun word => do
    let name := word.toList.take 1 ++ (word.toList.drop 1).takeWhile (· ≠ '=')
    match word.toList.drop name.length with
    | [] => showAlias word
    | _ :: value =>
        let name := String.ofList name
        modifyProcess fun process =>
          { process with aliases := process.aliases.insert name (String.ofList value) }

def eraseAliases (arguments : List String) : Shell Unit := do
  let (found, words) ← letters ['a'] arguments
  setStatus 0
  if found.contains 'a' then modifyProcess fun process => { process with aliases := ⟨[]⟩ }
  words.forM fun name => do
    if (← process).aliases.contains name then
      modifyProcess fun process => { process with aliases := process.aliases.erase name }
    else
      writeError ("unalias: " ++ name ++ " not found\n")
      setStatus 1

def conditions : List String :=
  ["EXIT", "HUP", "INT", "QUIT", "ILL", "TRAP", "ABRT", "BUS", "FPE", "KILL", "USR1", "SEGV",
    "USR2", "PIPE", "ALRM", "TERM", "16", "CHLD", "CONT", "STOP", "TSTP", "TTIN", "TTOU", "URG",
    "XCPU", "XFSZ", "VTALRM", "PROF", "WINCH", "IO", "PWR", "SYS", "32", "33"]

def conditionOf? (word : String) : Option String :=
  if isDigits word then
    ((Text.natural? 10 word.toList).filter (· < conditions.length)).map (conditions.getD · "")
  else some word.toUpper |>.filter conditions.contains

def setTraps (action : Option String) : List String → Shell Unit
  | [] => setStatus 0
  | word :: rest =>
      match conditionOf? word with
      | some name => do
          modifyProcess fun process =>
            { process with traps := match action with
                | some text => process.traps.insert name text
                | none => process.traps.erase name }
          setTraps action rest
      | none => do
          writeError ("trap: " ++ word ++ ": bad trap\n")
          setStatus 1

def trap (arguments : List String) : Shell Unit := do
  let (_, words) ← letters [] arguments
  match words with
  | [] =>
      let traps := (← process).traps
      answer "trap" (String.join (conditions.filterMap fun name =>
        (traps.get? name).map fun text => "trap -- " ++ quoted text ++ " " ++ name ++ "\n"))
  | [only] => setTraps none [only]
  | action :: rest =>
      if isDigits action then setTraps none words
      else setTraps (if action = "-" then none else some action) rest

def wait (arguments : List String) : Shell Unit := do
  setStatus 0
  arguments.forM fun word => do
    let n ← number word
    let world ← world
    setStatus (if n < firstJob then 127 else (world.outcomes[n - firstJob]?).getD 127)

def surroundings : Shell Condition.Surroundings := do
  let files := (← world).files
  let directory := (← process).directory
  return ⟨fun path => files.entry? directory path,
    fun path => ["/bin", "/bin/sh"].contains path⟩

def test (name : String) (words : List String) : Shell Unit := do
  match Condition.status (← surroundings) 0 words with
  | .ok status => setStatus status
  | .error message => reply name (.refused message)

def bracket (words : List String) : Shell Unit :=
  if (words.getLast?.bind fun word => word.toList.head?) = some ']' then test "[" words.dropLast
  else fail "missing ]"

def specials : List (String × (List String → Shell Unit)) :=
  [(":", fun _ => setStatus 0), ("break", leaveLoops false), ("continue", leaveLoops true),
    ("exit", exit), ("local", declareLocal),
    ("export", mark "export" Binding.exported ({ · with exported := true })),
    ("readonly", mark "readonly" Binding.fixed ({ · with fixed := true })),
    ("return", leaveFunction), ("set", set), ("shift", shift),
    ("trap", trap), ("unset", unset)]

def regulars : List (String × (List String → Shell Unit)) :=
  [("[", bracket), ("alias", defineAliases),
    ("cd", changeDirectory), ("chdir", changeDirectory),
    ("echo", fun words => reply "echo" (echo words)), ("false", fun _ => setStatus 1),
    ("printf", fun words => reply "printf" (Printf.run words)), ("pwd", printDirectory),
    ("read", read), ("test", test "test"), ("true", fun _ => setStatus 0),
    ("unalias", eraseAliases)]

def controlNames : List String := [".", "command", "eval", "exec", "type", "wait"]

def isSpecial (name : String) : Bool := Reader.specialCommands.contains name

def isBuiltin (name : String) : Bool :=
  (specials.lookup name).isSome || (regulars.lookup name).isSome || controlNames.contains name

def plain? (name : String) : Option (List String → Shell Unit) :=
  (specials.lookup name).or (regulars.lookup name)

end ShellWalk.Script.Builtin
