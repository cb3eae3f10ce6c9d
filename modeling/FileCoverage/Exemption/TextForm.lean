import FileCoverage.Exemption.Registry
import FileCoverage.Json.Quoted

/-!
# Exemptions as blocks of text

Each entry is a block of lines between braces: the path as a JSON string, and a line for each flag
that is set.
-/

namespace FileCoverage

namespace Exemption

/-- The name of the list of exemptions, and of one block. -/
def listKey : Text := "test_file_exemption"

def pathKey : Text := "exempted_file_path"

/-- The name of the flag that a file needs no test. -/
def testNotRequiredKey : Text := "test_file_not_required"

/-- The name of the flag that a file is left out of coverage analysis. -/
def incompatibleKey : Text := "source_file_is_incompatible_with_code_coverage"

def flagKeys (e : Exemption) : List Text :=
  (if e.testFileNotRequired then [testNotRequiredKey] else [])
    ++ if e.incompatibleWithCoverage then [incompatibleKey] else []

def flagLine (key : Text) : Text := "  " ++ key ++ ": true"

def blockLines (path : Text) (e : Exemption) : List Text :=
  [listKey ++ " \x7b", "  " ++ pathKey ++ ": " ++ Json.quoted path]
    ++ e.flagKeys.map flagLine ++ [['\x7d']]

end Exemption

/-- The registry as blocks of text, each line ended by a line feed. -/
def Registry.toText (r : Registry) : Text :=
  (r.entries.flatMap fun (path, e) => Exemption.blockLines path e).flatMap (· ++ ['\n'])

end FileCoverage
