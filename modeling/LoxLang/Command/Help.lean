import LoxLang.Command.Flags
import LoxLang.Settings
import LoxLang.Text.Lines

/-! The commands with their flags, and the help texts about them. -/
namespace LoxLang

inductive Command where
  | run | repl | tokens | ast | init | help
deriving DecidableEq, Inhabited, Repr

namespace Flag

def config : Flag :=
  { name := "config", kind := .text Settings.defaultFile, usage := "settings file" }

def noColor : Flag :=
  { name := "no-color", usage := "disable coloured diagnostics" }

def trace : Flag :=
  { name := "trace", usage := "print the interpreter's stack trace with diagnostics" }

def verbose : Flag :=
  { name := "verbose", usage := "log pipeline timings to stderr" }

def help : Flag :=
  { name := "help", short := some "h", usage := "show help" }

def dump : Flag :=
  { name := "dump", usage := "print the raw node structure" }

def force : Flag :=
  { name := "force", usage := "overwrite an existing file" }

/-- The flags that stand before the command. -/
def global : List Flag := [config, noColor, trace, verbose, help]

def dashed (name : String) : String :=
  (if name.length = 1 then "-" else "--") ++ name

def helpRow (f : Flag) : String × String :=
  let names := ", ".intercalate (f.names.map dashed)
  match f.kind with
  | .switch => (names, s!"{f.usage} (default: false)")
  | .text initial => (names ++ " value", s!"{f.usage} (default: {Text.quoted initial})")

end Flag

namespace Command

/-- All commands, in the order of the help text. -/
def all : List Command := [run, repl, tokens, ast, init, help]

def names : Command → List String
  | run => ["run"]
  | repl => ["repl"]
  | tokens => ["tokens"]
  | ast => ["ast"]
  | init => ["init"]
  | help => ["help", "h"]

def ofName? (name : String) : Option Command :=
  all.find? (·.names.contains name)

/-- The flags of a command's own, without the one for help. -/
def flags : Command → List Flag
  | ast => [.dump]
  | init => [.force]
  | _ => []

def usage : Command → String
  | run => "run a script"
  | repl => "start an interactive session"
  | tokens => "print the tokens of a script"
  | ast => "print the syntax tree of a script"
  | init => "write a default settings file"
  | help => "Shows a list of commands or help for one command"

def arguments : Command → String
  | run | tokens | ast => "<script>"
  | repl | init => "[arguments...]"
  | help => "[command]"

def title : Command → String
  | run => "lox run"
  | repl => "lox repl"
  | tokens => "lox tokens"
  | ast => "lox ast"
  | init => "lox init"
  | help => ""

end Command

def columns (rows : List (String × String)) : List String :=
  let width := (rows.map (·.1.length)).foldl max 0 + 2
  rows.map fun (left, right) =>
    "   " ++ left ++ String.ofList (List.replicate (width - left.length) ' ') ++ right

def appHelp : String :=
  Text.ofLines <|
    ["NAME:", "   lox - tree-walking interpreter for the Lox scripting language", "", "USAGE:",
      "   lox [global options] command [command options] [script]", "", "COMMANDS:"] ++
    columns (Command.all.map fun c => (", ".intercalate c.names, c.usage)) ++
    ["", "GLOBAL OPTIONS:"] ++ columns (Flag.global.map Flag.helpRow)

def Command.helpText (c : Command) (flags : List Flag) : String :=
  let top := ["NAME:", s!"   {c.title} - {c.usage}", "", "USAGE:"]
  match flags with
  | [] => Text.ofLines (top ++ [s!"   {c.title} {c.arguments}"])
  | flags =>
    Text.ofLines (top ++ [s!"   {c.title} [command options] {c.arguments}", "", "OPTIONS:"] ++
      columns (flags.map Flag.helpRow) ++ ["   "])

end LoxLang
