import LoxLang.Text.Quoted

/-! Flags on a command line. They stand before the other arguments, with one dash or two, and have
their value after an equals sign or, where one is needed, as the next argument. -/
namespace LoxLang

inductive FlagKind where
  /-- Nothing, or a truth value after an equals sign. -/
  | switch
  /-- A text. -/
  | text (initial : String)
deriving DecidableEq, Inhabited, Repr

structure Flag where
  /-- The name and, if there is one, a second name. -/
  name : String
  short : Option String := none
  kind : FlagKind := .switch
  usage : String
deriving DecidableEq, Inhabited, Repr

namespace Flag

def names (f : Flag) : List String :=
  f.name :: f.short.toList

end Flag

inductive FlagError where
  | badForm (argument : String)
  | undefined (name : String)
  | needsArgument (name : String)
  | notBoolean (name value : String)
  | twoForms (first second : String)
deriving DecidableEq, Inhabited, Repr

namespace FlagError

def message : FlagError → String
  | badForm argument => s!"bad flag syntax: {argument}"
  | undefined name => s!"flag provided but not defined: -{name}"
  | needsArgument name => s!"flag needs an argument: -{name}"
  | notBoolean name value =>
    s!"invalid boolean value {Text.quoted value} for -{name}: parse error"
  | twoForms first second => s!"Cannot use two forms of the same flag: {second} {first}"

end FlagError

inductive FlagWord where
  | other
  | terminator
  | malformed
  | flag (name : String) (value : Option String)
deriving DecidableEq, Inhabited, Repr

/-- Splits a flag without its dashes at the first equals sign. -/
def splitFlag (text : List Char) : FlagWord :=
  let name := String.ofList (text.takeWhile (· ≠ '='))
  match text.dropWhile (· ≠ '=') with
  | [] => .flag name none
  | _ :: value => .flag name (some (String.ofList value))

def flagWord (argument : String) : FlagWord :=
  match argument.toList with
  | ['-', '-'] => .terminator
  | '-' :: '-' :: '-' :: _ | '-' :: '-' :: '=' :: _ | '-' :: '=' :: _ => .malformed
  | '-' :: '-' :: text => splitFlag text
  | ['-'] => .other
  | '-' :: text => splitFlag text
  | _ => .other

def switchValue? (text : String) : Option Bool :=
  if ["1", "t", "T", "TRUE", "true", "True"].contains text then some true
  else if ["0", "f", "F", "FALSE", "false", "False"].contains text then some false
  else none

/-- What flags were given, by the names that were used: the value of a switch is `true` or `false`. -/
structure FlagValues where
  switches : List (String × Bool) := []
  texts : List (String × String) := []
deriving DecidableEq, Inhabited, Repr

namespace FlagValues

def given (v : FlagValues) (name : String) : Bool :=
  (v.switches.lookup name).isSome || (v.texts.lookup name).isSome

/-- The last value given to a switch, by whichever of its names. -/
def switch (v : FlagValues) (f : Flag) : Bool :=
  f.names.any fun name => (v.switches.lookup name).getD false

def text (v : FlagValues) (f : Flag) : String :=
  match f.kind with
  | .switch => ""
  | .text initial => (v.texts.lookup f.name).getD initial

/-- A flag that was given by both of its names. -/
def twoForms? (v : FlagValues) (flags : List Flag) : Option FlagError :=
  flags.findSome? fun f =>
    match f.short with
    | some second => if v.given f.name && v.given second then some (.twoForms f.name second) else none
    | none => none

end FlagValues

/-- The flags at the front of the arguments, those before the first wrong one if there is one, and the
arguments behind them. -/
structure FlagReading where
  values : FlagValues
  rest : List String := []
  error : Option FlagError := none
deriving DecidableEq, Inhabited, Repr

def readFlags (flags : List Flag) (values : FlagValues) : List String → FlagReading
  | [] => { values }
  | argument :: rest =>
    match flagWord argument with
    | .other => { values, rest := argument :: rest }
    | .terminator => { values, rest }
    | .malformed => { values, error := some (.badForm argument) }
    | .flag name value =>
      match flags.find? (·.names.contains name) with
      | none => { values, error := some (.undefined name) }
      | some f =>
        match f.kind, value with
        | .switch, none =>
          readFlags flags { values with switches := (name, true) :: values.switches } rest
        | .switch, some text =>
          match switchValue? text with
          | some b =>
            readFlags flags { values with switches := (name, b) :: values.switches } rest
          | none => { values, error := some (.notBoolean name text) }
        | .text _, some text =>
          readFlags flags { values with texts := (name, text) :: values.texts } rest
        | .text _, none =>
          match rest with
          | [] => { values, error := some (.needsArgument name) }
          | text :: rest =>
            readFlags flags { values with texts := (name, text) :: values.texts } rest

end LoxLang
