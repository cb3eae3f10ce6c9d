import FileCoverage.Text.Basic

/-!
# Commands

The program has three commands, each with a repository root as its first parameter.
-/

namespace FileCoverage.CommandLine

/-- What the program can be asked to do. -/
inductive CommandName where
  | run
  | regenerate
  | checkTestFiles
  deriving DecidableEq, Repr

/-- The program, or one of its commands. -/
inductive Callee where
  | program
  | command (name : CommandName)
  deriving DecidableEq, Repr

/-- A call of the program: a command with its arguments, or a request for help. -/
inductive Call where
  | command (verbose : Bool) (name : CommandName) (arguments : List Text)
  | help
  deriving DecidableEq, Repr

/-- A command with its parameters, or a request for help. -/
inductive Request where
  | run (root source : Text) (options : List Text)
  | regenerate (root : Text) (json : Bool)
  | checkTestFiles (root extension : Text)
  | help (callee : Callee)
  deriving DecidableEq, Repr

end FileCoverage.CommandLine
