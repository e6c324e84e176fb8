/-!
# Patterns

Whether a text is a well-formed regular expression: groups and classes are
closed, a repetition follows something that can be repeated, and a backslash
stands before a character that may be escaped.
-/

namespace LoggingFacade
namespace Text
namespace Pattern

/-- Of the letters only those that name a class, a control character or an end of
the text may be escaped, and no digit. -/
def isEscapable (c : Char) : Bool :=
  if c.isAlphanum then "dswDSWaftnrvAz".toList.contains c
  else c.toNat < 0x80 && c != '<' && c != '>'

/-- What follows a class, of which so many brackets are open. A bracket that
closes the class right after its start stands for itself; a range ascends. -/
def afterClass? : Nat → List Char → Option (List Char)
  | 0, cs => some cs
  | n + 1, '[' :: '^' :: ']' :: rest => afterClass? (n + 2) rest
  | n + 1, '[' :: ']' :: rest => afterClass? (n + 2) rest
  | n + 1, '[' :: '^' :: rest => afterClass? (n + 2) rest
  | n + 1, '[' :: rest => afterClass? (n + 2) rest
  | n + 1, ']' :: rest => afterClass? n rest
  | n + 1, '\\' :: c :: rest => if isEscapable c then afterClass? (n + 1) rest else none
  | n + 1, a :: '-' :: b :: rest =>
    if b == ']' || b == '[' || b == '-' || b == '\\' || a ≤ b then
      afterClass? (n + 1) ('-' :: b :: rest)
    else none
  | n + 1, _ :: rest => afterClass? (n + 1) rest
  | _ + 1, [] => none

/-- Reads on with so many groups open; `repeatable` tells whether the last part
can be repeated. -/
def isWellFormedFrom : Nat → Nat → Bool → List Char → Bool
  | 0, _, _, _ => false
  | _ + 1, groups, _, [] => groups == 0
  | fuel + 1, groups, repeatable, c :: rest =>
    match c with
    | '\\' =>
      match rest with
      | escaped :: rest => isEscapable escaped && isWellFormedFrom fuel groups true rest
      | [] => false
    | '(' =>
      match rest with
      | '?' :: ':' :: rest => isWellFormedFrom fuel (groups + 1) false rest
      | '?' :: _ => false
      | rest => isWellFormedFrom fuel (groups + 1) false rest
    | ')' => groups != 0 && isWellFormedFrom fuel (groups - 1) true rest
    | '[' =>
      match afterClass? 1 (openedClass rest) with
      | some rest => isWellFormedFrom fuel groups true rest
      | none => false
    | '|' => isWellFormedFrom fuel groups false rest
    | '\x7b' => false
    | c =>
      if c == '*' || c == '+' || c == '?' then
        repeatable && isWellFormedFrom fuel groups true rest
      else isWellFormedFrom fuel groups true rest
where
  /-- The class after its start. -/
  openedClass : List Char → List Char
    | '^' :: ']' :: rest => rest
    | ']' :: rest => rest
    | '^' :: rest => rest
    | rest => rest

def isWellFormed (cs : List Char) : Bool := isWellFormedFrom (cs.length + 1) 0 false cs

end Pattern
end Text
end LoggingFacade
