import FileCoverage.Json.Fault
import FileCoverage.Json.Value
import FileCoverage.Text.Digit
import FileCoverage.Text.Rest

/-!
# Scanning JSON text

The parts of a JSON text that hold no others are read here: blanks, names of values, numbers and
strings.  Whatever is read ends before the end of the text or at it, so the text after it is
shorter; that is part of the type of a result.

Two codes of four digits that are a pair are read as one character, the first half taking the second
with it.
-/

namespace FileCoverage.Json

open Text (Rest)

/-- What has been read from the start of `s`, and the text after it. -/
abbrev Reading (α : Type) (s : Text) := Except Stop (α × Rest s)

/-! ### Blanks -/

/-- The characters that may stand between the parts of a text. -/
def isSpace (c : Char) : Bool := c = ' ' || c = '\t' || c = '\n' || c = '\r'

def skip (s : Text) : Text := s.dropWhile isSpace

/-- The text after a character and the blanks that follow it. -/
def beyond (c : Char) (s : Text) : Rest (c :: s) := (Rest.tail c s).dropWhile isSpace

/-! ### Names -/

def namedValues : List (Text × Value) :=
  [("null", .null), ("true", .boolean true), ("false", .boolean false), ("NaN", .real .nan),
    ("Infinity", .real (.infinite false)), ("-Infinity", .real (.infinite true))]

/-- The text after a word, if the word is there. -/
def after? (word s : Text) : Option (Rest s) :=
  if h : word.isPrefixOf s ∧ 0 < word.length ∧ 0 < s.length then
    some ⟨s.drop word.length, by rw [List.length_drop]; omega, List.drop_suffix _ _⟩
  else none

def named? (s : Text) : Option (Value × Rest s) :=
  namedValues.findSome? fun (word, value) => (after? word s).map fun rest => (value, rest)

/-! ### Numbers -/

def digits (s : Text) : List Nat := (s.takeWhile Text.isAsciiDigit).filterMap Text.digitValue?

def afterDigits {s : Text} (r : Rest s) : Rest s := r.dropWhile Text.isAsciiDigit

/-- The whole part of a number: a zero, or digits of which the first is not zero. -/
def whole? (s : Text) : Option (List Nat × Rest s) :=
  match s with
  | [] => none
  | c :: rest =>
    if c = '0' then some ([0], .tail c rest)
    else if Text.isAsciiDigit c then some (digits (c :: rest), afterDigits (.tail c rest))
    else none

/-- The digits after a point, if there are any. -/
def fraction? (s : Text) : Option (List Nat × Rest s) :=
  match s with
  | '.' :: rest =>
    if digits rest = [] then none else some (digits rest, afterDigits (.tail '.' rest))
  | _ => none

/-- What is left after a character and a sign, if one follows it. -/
def afterSign (c : Char) (s : Text) : Rest (c :: s) :=
  ⟨(Numeral.cutSign s).2, Nat.lt_succ_of_le (Numeral.length_cutSign_le s),
    (Numeral.cutSign_suffix s).trans (List.suffix_cons c s)⟩

/-- The exponent after its letter, if there are digits. -/
def exponent? (s : Text) : Option (Int × Rest s) :=
  match s with
  | [] => none
  | c :: rest =>
    let unsigned := afterSign c rest
    if (c = 'e' ∨ c = 'E') ∧ digits unsigned.1 ≠ [] then
      some (Numeral.signed (Numeral.cutSign rest).1 (Text.ofDigits (digits unsigned.1)),
        afterDigits unsigned)
    else none

/-- What is read if it is there, and the text after it. -/
def optional {α : Type} {s : Text} (read? : (t : Text) → Option (α × Rest t)) (r : Rest s) :
    Option α × Rest s :=
  match read? r.1 with
  | some (a, rest) => (some a, r.trans rest)
  | none => (none, r)

def numberValue (negative : Bool) (whole : List Nat) (fraction : Option (List Nat))
    (exponent : Option Int) : Except NumeralFault Value :=
  match fraction, exponent with
  | none, none => (Numeral.ofRun negative whole).map .integer
  | _, _ => .ok (.real (Binary64.ofDigits negative whole (fraction.getD []) (exponent.getD 0)))

/-- A number with no sign in front of it. -/
def unsignedNumber? (negative : Bool) (s : Text) : Option (Except NumeralFault Value × Rest s) :=
  (whole? s).map fun (whole, rest) =>
    let (fraction, rest) := optional fraction? rest
    let (exponent, rest) := optional exponent? rest
    (numberValue negative whole fraction exponent, rest)

def number? (s : Text) : Option (Except NumeralFault Value × Rest s) :=
  match s with
  | '-' :: rest =>
    (unsignedNumber? true rest).map fun (value, after) => (value, (Rest.tail '-' rest).trans after)
  | t => unsignedNumber? false t

/-- A value that holds no others and is no string. -/
def plain (s : Text) : Reading Value s :=
  match named? s, number? s with
  | some found, _ => .ok found
  | none, some (.ok value, rest) => .ok (value, rest)
  | none, some (.error fault, _) => .error (.numeral fault)
  | none, none => .error (.malformed .value s.length)

/-! ### Strings -/

def codeUnit? (a b c d : Char) : Option Nat := do
  let a ← Text.hexValue? a
  let b ← Text.hexValue? b
  let c ← Text.hexValue? c
  let d ← Text.hexValue? d
  return ((a * 16 + b) * 16 + c) * 16 + d

def afterCode (a b c d : Char) (s : Text) : Rest (a :: b :: c :: d :: s) :=
  (((Rest.tail a (b :: c :: d :: s)).trans (.tail b (c :: d :: s))).trans (.tail c (d :: s))).trans
    (.tail d s)

/--
The second code of a pair: what it adds to a first half, and the text after it.  It is looked for
only where more text follows it.
-/
def secondHalf (s : Text) : Except Stop (Option (Nat × Rest s)) :=
  match s with
  | '\\' :: 'u' :: a :: b :: c :: d :: e :: rest =>
    match codeUnit? a b c d with
    | none => .error (.malformed .escapeCode (s.length - 1))
    | some n =>
      let marked := (Rest.tail '\\' ('u' :: a :: b :: c :: d :: e :: rest)).trans (.tail 'u' _)
      .ok (if isLowHalf n then some (n, marked.trans (afterCode a b c d (e :: rest))) else none)
  | _ => .ok none

/-- The symbol whose code stands after `\u`; the string has to go on after the code. -/
def codeEscape (s : Text) : Reading Symbol s :=
  match s with
  | a :: b :: c :: d :: e :: rest =>
    match codeUnit? a b c d with
    | none => .error (.malformed .escapeCode (s.length + 1))
    | some n =>
      let rest := afterCode a b c d (e :: rest)
      if isHighHalf n then
        match secondHalf rest.1 with
        | .error stop => .error stop
        | .ok (some (low, after)) => .ok (.char (joinHalves n low), rest.trans after)
        | .ok none => .ok (.ofCode n, rest)
      else .ok (.ofCode n, rest)
  | _ => .error (.malformed .escapeCode (s.length + 1))

def letterMeaning? (letter : Char) : Option Char :=
  if letter = '"' ∨ letter = '\\' ∨ letter = '/' then some letter
  else if letter = 'b' then some '\x08'
  else if letter = 'f' then some '\x0c'
  else if letter = 'n' then some '\n'
  else if letter = 'r' then some '\r'
  else if letter = 't' then some '\t'
  else none

/-- The symbol after a backslash, in a string that `opened` tells the start of. -/
def escape (opened : Nat) (s : Text) : Reading Symbol s :=
  match s with
  | [] => .error (.malformed .unterminatedString opened)
  | letter :: rest =>
    if letter = 'u' then
      match codeEscape rest with
      | .error stop => .error stop
      | .ok (meant, after) => .ok (meant, (Rest.tail letter rest).trans after)
    else match letterMeaning? letter with
      | some c => .ok (.char c, .tail letter rest)
      | none => .error (.malformed .escapeLetter (s.length + 1))

/-- The symbols of a string up to its closing quote, `opened` being what is left at its start. -/
def stringFrom (opened : Nat) (s : Text) : Reading Symbols s :=
  match s with
  | [] => .error (.malformed .unterminatedString opened)
  | c :: rest =>
    if c = '"' then .ok ([], .tail c rest)
    else if c = '\\' then
      match escape opened rest with
      | .error stop => .error stop
      | .ok (meant, after) =>
        match stringFrom opened after.1 with
        | .error stop => .error stop
        | .ok (more, final) => .ok (meant :: more, (Rest.tail c rest).trans (after.trans final))
    else if c.toNat < 0x20 then .error (.malformed .controlCharacter s.length)
    else
      match stringFrom opened rest with
      | .error stop => .error stop
      | .ok (more, final) => .ok (.char c :: more, (Rest.tail c rest).trans final)
termination_by s.length
decreasing_by
  · have := after.2; simp_all only [List.length_cons]; omega
  · simp

end FileCoverage.Json
