import FileCoverage.Environment.Settings
import FileCoverage.Report.Format

/-!
# Options of a run

The options of a run are pairs of a key and a value with an equals sign between them, in any order.
Keys may be in small or capital letters.  Of several values for one key the last counts, but all of
them have to be valid.
-/

namespace FileCoverage

structure RunOptions where
  format : ReportFormat
  /-- The minutes that one target has. -/
  minutes : Int
  deriving DecidableEq, Repr

/-- An option that is not of the form of an option. -/
inductive OptionUsageFault where
  /-- It is no pair of a key and a value. -/
  | notKeyed (argument : Text)
  | timeoutNotWhole (value : Text)
  | timeoutNotPositive (value : Text)
  | unknownKey (argument : Text)
  deriving DecidableEq, Repr

def OptionUsageFault.message : OptionUsageFault → Text
  | .notKeyed argument => "Expected key=value argument, got: " ++ argument
  | .timeoutNotWhole value =>
    "processTimeout must be a whole number of minutes, got: " ++ value
  | .timeoutNotPositive value => "processTimeout must be positive, got: " ++ value
  | .unknownKey argument => "Unknown argument: " ++ argument

/-- Why the options of a run are not valid. -/
inductive RunOptionFault where
  | usage (fault : OptionUsageFault)
  | unsupportedFormat (value : Text)
  deriving DecidableEq, Repr

/-- The wording of a format that there is not. -/
def unsupportedFormatMessage (value : Text) : Text := "Unsupported report format: " ++ value

def RunOptionFault.message : RunOptionFault → Text
  | .usage fault => fault.message
  | .unsupportedFormat value => unsupportedFormatMessage value

namespace RunOptions

inductive Assignment where
  | format (format : ReportFormat)
  | minutes (minutes : Int)
  deriving DecidableEq, Repr

def minutesOf (value : Text) : Except RunOptionFault Int :=
  match Numeral.parse (Text.trim value) with
  | .error _ => .error (.usage (.timeoutNotWhole value))
  | .ok n => if n ≤ 0 then .error (.usage (.timeoutNotPositive value)) else .ok n

def assignment (argument : Text) : Except RunOptionFault Assignment :=
  match Text.cutAt? '=' argument with
  | none => .error (.usage (.notKeyed argument))
  | some (key, value) =>
    let key := Text.lower (Text.trim key)
    if key = "format" then
      match ReportFormat.parse? value with
      | some format => .ok (.format format)
      | none => .error (.unsupportedFormat value)
    else if key = "processtimeout" then (minutesOf value).map .minutes
    else .error (.usage (.unknownKey argument))

def set (options : RunOptions) : Assignment → RunOptions
  | .format format => { options with format }
  | .minutes minutes => { options with minutes }

/-- The options after the arguments, read from left to right up to the first that is not valid. -/
def read (options : RunOptions) : List Text → Except RunOptionFault RunOptions
  | [] => .ok options
  | argument :: rest =>
    match assignment argument with
    | .error fault => .error fault
    | .ok found => read (options.set found) rest

/-- The options if none is given. -/
def default (vars : Variables) : RunOptions := ⟨.markdown, (Settings.timeoutMinutes vars).1⟩

def parse (vars : Variables) (arguments : List Text) : Except RunOptionFault RunOptions :=
  read (default vars) arguments

@[simp]
theorem read_nil (options : RunOptions) : read options [] = .ok options := rfl

end RunOptions

end FileCoverage
