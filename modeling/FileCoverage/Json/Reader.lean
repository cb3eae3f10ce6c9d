import FileCoverage.Json.Scan

/-!
# Reading JSON

A text holds one value between blanks.  Of several members of an object with one name the last
counts, in the place of the first.  The first fault from the left is reported.
-/

namespace FileCoverage.Json

open Text (Rest)

/-- The first character that is no blank, and what is left after it. -/
def next? (s : Text) : Option (Char × Rest s) :=
  match s with
  | [] => none
  | c :: rest =>
    if isSpace c then (next? rest).map fun (d, after) => (d, (Rest.tail c rest).trans after)
    else some (c, .tail c rest)

/-- What is left after a closing bracket, if nothing but blanks is in front of it. -/
def closed? (closer : Char) (s : Text) : Option (Rest s) :=
  match next? s with
  | some (c, rest) => if c = closer then some rest else none
  | none => none

/-- What follows an item: the closing bracket, or a comma, after which blanks are passed over. -/
inductive Separator where
  | close
  | comma
  deriving DecidableEq

def separator (closer : Char) (s : Text) : Reading Separator s :=
  match next? s with
  | some (c, rest) =>
    if c = closer then .ok (.close, rest)
    else if c = ',' then .ok (.comma, rest.dropWhile isSpace)
    else .error (.malformed .comma (rest.1.length + 1))
  | none => .error (.malformed .comma 0)

/-- Reads the colon after the name of a member, and passes over the blanks around it. -/
def colon (s : Text) : Reading Unit s :=
  match next? s with
  | some (c, rest) =>
    if c = ':' then .ok ((), rest.dropWhile isSpace)
    else .error (.malformed .colon (rest.1.length + 1))
  | none => .error (.malformed .colon 0)

/-- Reads a string with its quotes; `missing` is the problem if no quote is first. -/
def string (missing : Problem) (s : Text) : Reading Symbols s :=
  match s with
  | '"' :: rest =>
    match stringFrom (rest.length + 1) rest with
    | .error stop => .error stop
    | .ok (content, after) => .ok (content, (Rest.tail '"' rest).trans after)
  | t => .error (.malformed missing t.length)

/-- Reads the name of a member and the colon after it. -/
def memberName (s : Text) : Reading Symbols s :=
  match string .propertyName s with
  | .error stop => .error stop
  | .ok (name, rest) =>
    match colon rest.1 with
    | .error stop => .error stop
    | .ok ((), after) => .ok (name, rest.trans after)

mutual

def value (s : Text) : Reading Value s :=
  match s with
  | '[' :: rest =>
    match closed? ']' rest with
    | some after => .ok (.array [], (Rest.tail '[' rest).trans after)
    | none =>
      match items (beyond '[' rest).1 with
      | .error stop => .error stop
      | .ok (items, after) => .ok (.array items, (beyond '[' rest).trans after)
  | '\x7b' :: rest =>
    match closed? '\x7d' rest with
    | some after => .ok (.object [], (Rest.tail '\x7b' rest).trans after)
    | none =>
      match members (beyond '\x7b' rest).1 with
      | .error stop => .error stop
      | .ok (members, after) =>
        .ok (.object (KeyedList.ofPairs members), (beyond '\x7b' rest).trans after)
  | '"' :: rest =>
    match string .value ('"' :: rest) with
    | .error stop => .error stop
    | .ok (content, after) => .ok (.string content, after)
  | t => plain t
termination_by (s.length, 0)
decreasing_by
  all_goals exact Prod.Lex.left _ _ (beyond _ rest).2

/-- The items of an array from the next one on, and its closing bracket. -/
def items (s : Text) : Reading (List Value) s :=
  match value s with
  | .error stop => .error stop
  | .ok (item, rest) =>
    match separator ']' rest.1 with
    | .error stop => .error stop
    | .ok (.close, after) => .ok ([item], rest.trans after)
    | .ok (.comma, next) =>
      match items next.1 with
      | .error stop => .error stop
      | .ok (more, after) => .ok (item :: more, rest.trans (next.trans after))
termination_by (s.length, 1)
decreasing_by
  · exact Prod.Lex.right _ Nat.one_pos
  · exact Prod.Lex.left _ _ (rest.trans next).2

/-- The members of an object from the next one on, and its closing brace. -/
def members (s : Text) : Reading Members s :=
  match memberName s with
  | .error stop => .error stop
  | .ok (name, rest) =>
    match value rest.1 with
    | .error stop => .error stop
    | .ok (v, rest') =>
      match separator '\x7d' rest'.1 with
      | .error stop => .error stop
      | .ok (.close, after) => .ok ([(name, v)], rest.trans (rest'.trans after))
      | .ok (.comma, next) =>
        match members next.1 with
        | .error stop => .error stop
        | .ok (more, after) =>
          .ok ((name, v) :: more, rest.trans (rest'.trans (next.trans after)))
termination_by (s.length, 0)
decreasing_by
  · exact Prod.Lex.left _ _ rest.2
  · exact Prod.Lex.left _ _ (rest.trans (rest'.trans next)).2

end

/-- Reads one value between blanks, with nothing else in the text. -/
def document (t : Text) : Except Stop Value :=
  if t.head? = some '\ufeff' then .error (.malformed .byteOrderMark t.length)
  else
    match value (skip t) with
    | .error stop => .error stop
    | .ok (v, rest) =>
      if skip rest.1 = [] then .ok v else .error (.malformed .extraData (skip rest.1).length)

def read (t : Text) : Except Fault Value := (document t).mapError (Stop.fault t)

end FileCoverage.Json
