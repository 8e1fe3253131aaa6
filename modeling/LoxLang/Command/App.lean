import LoxLang.Command.Help
import LoxLang.Command.Script
import LoxLang.Console
import LoxLang.History
import LoxLang.Settings.Yaml
import LoxLang.Text.Control
import LoxLang.Text.Space
import LoxLang.Tree.Dump
import LoxLang.Tree.Printer

/-! The program: flags and commands, acting on whatever surroundings they are given. -/
namespace LoxLang

/-- What a command knows: the settings, whether diagnostics are coloured, and whether what it does is
logged. -/
structure Context where
  settings : Settings := {}
  coloured : Bool := false
  verbose : Bool := false
  settingsFile : String := Settings.defaultFile
deriving DecidableEq, Inhabited, Repr

abbrev Result := Option Failure

inductive LoadFailure where
  | unreadable (e : FileError)
  | wrong (path : String) (e : Settings.LoadError)
deriving Inhabited

def LoadFailure.message : LoadFailure → String
  | unreadable e => e.message
  | wrong path e => s!"reading {path}: {e.message}"

section

variable {m : Type → Type} [Monad m] [Console m]

def log (c : Context) (text : String) : m Unit := do
  if c.verbose then
    let time ← Console.timeOfDay
    Console.complain s!"lox: {time} {text}\n"

/-- Settings from a file over the defaults, and whether there is such a file. -/
def loadSettings (path : String) : m (Except LoadFailure (Settings × Bool)) := do
  match ← Console.readFile path with
  | .error e =>
    if e.cause = .notFound then return .ok ({}, false) else return .error (.unreadable e)
  | .ok bytes =>
    match ({} : Settings).ofYaml (Text.decodeUtf8 bytes) with
    | .ok s => return .ok (s, true)
    | .error e => return .error (.wrong path e)

def saveSettings (s : Settings) (path : String) : m (Except FileError Unit) :=
  Console.writeFile path (String.ofList s.toYaml).toUTF8.toList

def readSource (path : String) : m (Except Failure (List Char)) := do
  match ← Console.readFile path with
  | .ok bytes => return .ok (Text.decodeUtf8 bytes)
  | .error e => return .error (.exit s!"could not read {path}: {e.message}" exitNoInput)

def deliver (o : Outcome) : m Result := do
  Console.print o.out
  Console.complain o.err
  return o.failure

def runFile (c : Context) (path : String) : m Result := do
  match ← readSource path with
  | .error failure => return some failure
  | .ok source =>
    let (parsed, span) ← Console.timed fun _ => parse c.settings.parseLimit path source
    log c s!"parsed {path} ({parsed.program.length} statements) in {span}"
    let (result, span) ← Console.timed fun _ => parsed.run c.coloured loopRounds c.settings.machine
    if parsed.diagnostics.isEmpty then log c s!"ran {path} in {span}"
    deliver result.2

def dataFailure (ds : List Diagnostic) : Result :=
  if ds.isEmpty then none else some (.exit "" exitDataError)

/-- A token behind its line number, which takes four places. -/
def tokenLine (t : Token) : String :=
  let line := toString t.line
  String.ofList (List.replicate (4 - line.length) ' ') ++ line ++ " " ++ t.text ++ "\n"

def listTokens (c : Context) (path : String) : m Result := do
  match ← readSource path with
  | .error failure => return some failure
  | .ok source =>
    let (tokens, errors) := scan path source
    let ds := errors.map LexError.diagnostic
    deliver
      { out := String.join (tokens.map tokenLine), err := reportAll c.coloured ds
        failure := dataFailure ds }

/-- The tree of a script: in full, or as printed, with nothing for an empty script. -/
def shownTree (full : Bool) (program : List Stmt) : String :=
  if full then dumpProgram program ++ "\n"
  else if program.isEmpty then ""
  else
    match printProgram program with
    | .ok text => text ++ "\n"
    | .error fault => fault.message ++ "\n"

def showTree (c : Context) (path : String) (full : Bool) : m Result := do
  match ← readSource path with
  | .error failure => return some failure
  | .ok source =>
    let parsed := parse c.settings.parseLimit path source
    let ds := parsed.diagnostics
    deliver
      { out := shownTree full parsed.program, err := reportAll c.coloured ds
        failure := dataFailure ds }

def writeDefaults (path : String) (force : Bool) : m Result := do
  let taken ← Console.fileExists path
  if taken && !force then return some (.exit s!"{path} already exists" exitUsage)
  match ← saveSettings {} path with
  | .ok _ => return none
  | .error e => return some (.exit s!"error creating {path}: {e.message}" 1)

def banner : String :=
  "Lox REPL. Ctrl+C cancels input, Ctrl+D exits. Type :quit to exit."

structure Session where
  machine : Machine
  history : History

/-- Takes a line of a session, and says whether the session goes on. Lines with a colon in front are
meant for the session itself. -/
def Session.step (c : Context) (s : Session) (line : List UInt8) : m (Session × Bool) := do
  let text := Text.decodeUtf8 line
  match Text.trimSpace text with
  | [] => return (s, true)
  | [':', 'q', 'u', 'i', 't'] => return (s, false)
  | ':' :: _ =>
    Console.print "unknown command. Type :quit to exit.\n"
    return (s, true)
  | _ =>
    let (machine, o) := runLine c.settings c.coloured loopRounds s.machine text
    Console.print o.out
    Console.complain o.err
    return ({ machine, history := s.history.add line }, true)

def loadHistory (path : String) : m History := do
  if path = "" then return {}
  match ← Console.readFile path with
  | .ok bytes => return History.ofBytes bytes
  | .error _ => return {}

def saveHistory (path : String) (h : History) : m Unit := do
  if path ≠ "" then
    let _ ← Console.writeFile path h.toBytes

/-- An interactive session. A prompt with a control character in it cannot be shown. -/
def interact (c : Context) : m Result := do
  Console.print (banner ++ "\n")
  let path := c.settings.historyPath (← Console.home)
  let history ← loadHistory path
  if c.settings.prompt.toList.any Text.isControl then
    saveHistory path history
    return some (.error "invalid prompt")
  let start : Session := { machine := c.settings.machine, history }
  let (s, ended) ← Console.eachLine c.settings.prompt (Session.step c) start
  if ended then Console.print "\n"
  saveHistory path s.history
  return none

def showHelp : List String → m Result
  | [] => do
    Console.print appHelp
    return none
  | topic :: _ => do
    match Command.ofName? topic with
    | some command =>
      Console.print (command.helpText command.flags)
      return none
    | none => return some (.exit s!"No help topic for '{topic}'" 3)

def usageFailure (text : String) : Result :=
  some (.exit s!"Usage: lox {text}" exitUsage)

def Command.act (c : Context) (values : FlagValues) (arguments : List String) : Command → m Result
  | run =>
    match arguments with
    | [path] => runFile c path
    | _ => return usageFailure "run <script>"
  | repl => interact c
  | tokens =>
    match arguments with
    | [path] => listTokens c path
    | _ => return usageFailure "tokens <script>"
  | ast =>
    match arguments with
    | [path] => showTree c path (values.switch .dump)
    | _ => return usageFailure "ast [--dump] <script>"
  | init => writeDefaults c.settingsFile (values.switch .force)
  | help => showHelp arguments

/-- A named command with the arguments behind its name. Only a failure of the command itself is
logged. -/
def runCommand (c : Context) (command : Command) (arguments : List String) : m Result := do
  let flags := command.flags ++ [.help]
  let reading := readFlags flags {} arguments
  match reading.error.or (reading.values.twoForms? flags) with
  | some e =>
    Console.print s!"Incorrect Usage: {e.message}\n\n"
    Console.print (command.helpText flags)
    return some (.error e.message)
  | none =>
    if reading.values.switch .help then
      Console.print (command.helpText flags)
      return none
    let result ← command.act c reading.values reading.rest
    match result with
    | some failure => log c s!"exiting: {failure.message}"
    | none => pure ()
    return result

/-- What is done where no command is named: a script is run, and without one a session started. -/
def runDefault (c : Context) (arguments : List String) : m Result := do
  let result ← match arguments with
    | [] => interact c
    | [path] => runFile c path
    | _ => pure (usageFailure "[script]")
  match result with
  | some failure => log c s!"exiting: {failure.message}"
  | none => log c "exiting: <nil>"
  return result

def runWithFlags (values : FlagValues) (arguments : List String) : m Result := do
  let path := values.text .config
  let c : Context := { verbose := values.switch .verbose, settingsFile := path }
  match ← loadSettings path with
  | .error failure =>
    log c s!"exiting: {failure.message}"
    return some (.exit failure.message exitUsage)
  | .ok (settings, found) =>
    if found then log c s!"settings loaded from {path}"
    let settings := if values.switch .noColor then { settings with color := false } else settings
    let coloured := settings.color && (← Console.showsColor)
    let c := { c with settings, coloured }
    match arguments with
    | [] => runDefault c []
    | name :: rest =>
      match Command.ofName? name with
      | some command => runCommand c command rest
      | none => runDefault c arguments

/-- Reads the flags that stand before the command, and goes on if they are right. -/
def runArguments (arguments : List String) : m Result := do
  let reading := readFlags Flag.global {} arguments
  match reading.values.twoForms? Flag.global, reading.error with
  | some e, _ =>
    Console.print (e.message ++ "\n" ++ appHelp)
    return some (.error e.message)
  | none, some e =>
    Console.print s!"Incorrect Usage. {e.message}\n\n"
    Console.print appHelp
    return some (.error e.message)
  | none, none =>
    if reading.values.switch .help then
      Console.print appHelp
      return none
    else runWithFlags reading.values reading.rest

/-- The program: does what the arguments say, and gives the exit status. -/
def lox (arguments : List String) : m Int := do
  let (status, text) := exitStatus (← runArguments arguments)
  Console.complain text
  return status

end

end LoxLang
