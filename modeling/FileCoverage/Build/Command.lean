import FileCoverage.Layout.Target

/-!
# Commands

A command is a list of words with placeholders.  In each word the label of the target is put in
first, then the path of the test, then the repository root; text that has been put in is searched
for the later placeholders.
-/

namespace FileCoverage.Command

def labelMark : Text := "\x7blabel\x7d"

def testPathMark : Text := "\x7btest_path\x7d"

def rootMark : Text := "\x7brepo_root\x7d"

def fillWord (root : Path) (target : TestTarget) (word : Text) : Text :=
  Text.replace rootMark root.toText
    (Text.replace testPathMark target.testPath (Text.replace labelMark target.label word))

def fill (root : Path) (target : TestTarget) (command : List Text) : List Text :=
  command.map (fillWord root target)

@[simp]
theorem length_fill (root : Path) (target : TestTarget) (command : List Text) :
    (fill root target command).length = command.length := by
  simp [fill]

end FileCoverage.Command
