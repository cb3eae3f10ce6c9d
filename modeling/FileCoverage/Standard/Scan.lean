import FileCoverage.Standard.Similarity
import FileCoverage.Standard.Usage

/-!
# Scanning arguments

An argument that begins with a minus sign and is longer than that names an option, until an argument
`--` says that no more options follow.  A long option may have its value after an equals sign or in
the next argument; several short options may stand in one argument.

A command may let options it does not know pass as arguments, and a program may end its options at
the first argument that is none.
-/

namespace FileCoverage.CommandLine

structure Form where
  /-- The short options, which take no values. -/
  shortFlags : List Char
  /-- The long options without values. -/
  longFlags : List Text
  /-- The long options with values. -/
  valued : List Text
  /-- Whether options that are not known pass as arguments. -/
  passesUnknown : Bool
  /-- Whether options may follow arguments. -/
  interspersed : Bool

/-- The options given, with their values, and the other arguments. -/
structure Scanned where
  options : List (Text × Text)
  arguments : List Text
  deriving DecidableEq, Repr

def Scanned.withOptions (options : List (Text × Text)) (s : Scanned) : Scanned :=
  ⟨options ++ s.options, s.arguments⟩

def Scanned.withArgument (argument : Text) (s : Scanned) : Scanned :=
  ⟨s.options, argument :: s.arguments⟩

def Form.longNames (form : Form) : List Text := form.longFlags ++ form.valued

def similarTo (name : Text) (known : List Text) : List Text :=
  Text.sorted (known.filter fun other => Similarity.isSimilar other name)

def shortName (c : Char) : Text := ['-', c]

/-- The name before an equals sign and the value after it, if there is an equals sign. -/
def cutValue (argument : Text) : Text × Option Text :=
  match Text.cutAt? '=' argument with
  | some (name, value) => (name, some value)
  | none => (argument, none)

def isOption (argument : Text) : Bool := ['-'].isPrefixOf argument && 1 < argument.length

inductive Meaning where
  | argument
  | options (options : List (Text × Text))
  /-- An option whose value is the next argument. -/
  | needsValue (name : Text)
  /-- No more options follow. -/
  | endOfOptions
  deriving DecidableEq, Repr

/-- What an argument is that names a long option of the form. -/
def longMeaning (form : Form) (name : Text) (value : Option Text) : Except UsageFault Meaning :=
  match form.valued.contains name, value with
  | true, some value => .ok (.options [(name, value)])
  | true, none => .ok (.needsValue name)
  | false, some _ => .error (.optionTakesNoValue name)
  | false, none => .ok (.options [(name, [])])

def shortMeaning (form : Form) (letters : Text) : Except UsageFault Meaning :=
  match letters.find? (!form.shortFlags.contains ·) with
  | none => .ok (.options (letters.map fun c => (shortName c, [])))
  | some c => .error (.noSuchOption (shortName c) [])

/-- What an argument is that names no long option of the form. -/
def otherMeaning (form : Form) (argument name : Text) : Except UsageFault Meaning :=
  if ['-', '-'].isPrefixOf argument then .error (.noSuchOption name (similarTo name form.longNames))
  else shortMeaning form (argument.drop 1)

def meaning (form : Form) (argument : Text) : Except UsageFault Meaning :=
  if argument = "--" then .ok .endOfOptions
  else if !isOption argument then .ok .argument
  else
    let (name, value) := cutValue argument
    if form.longNames.contains name then longMeaning form name value
    else match otherMeaning form argument name with
      | .ok found => .ok found
      | .error fault => if form.passesUnknown then .ok .argument else .error fault

def scan (form : Form) : List Text → Except UsageFault Scanned
  | [] => .ok ⟨[], []⟩
  | argument :: rest =>
    match meaning form argument with
    | .error fault => .error fault
    | .ok .endOfOptions => .ok ⟨[], rest⟩
    | .ok .argument =>
      if form.interspersed then (scan form rest).map (Scanned.withArgument argument)
      else .ok ⟨[], argument :: rest⟩
    | .ok (.options options) => (scan form rest).map (Scanned.withOptions options)
    | .ok (.needsValue name) =>
      match rest with
      | [] => .error (.optionNeedsValue name)
      | value :: rest => (scan form rest).map (Scanned.withOptions [(name, value)])

end FileCoverage.CommandLine
