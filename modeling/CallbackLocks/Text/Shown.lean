import CallbackLocks.Text.Quoted

/-!
# Values shown as text

A value is shown as a word, a name with arguments, a name with named fields, or a list, and each
of these on one line or spread over several.

* `Shown`            what is shown
* `Shown.inline`     on one line: `Name { a: 1, b: Some(2) }`
* `Shown.block`      one line for every field, argument and item, each followed by a comma and
                     moved in by four blanks a level; an empty list stays `[]`
-/

namespace CallbackLocks

/-- A value to be shown. -/
inductive Shown where
  | word (text : String)
  | call (name : String) (args : List Shown)
  | record (name : String) (fields : List (String × Shown))
  | list (items : List Shown)

namespace Shown

def nat (n : Nat) : Shown := word (toString n)

def text (s : String) : Shown := word (quoted s)

def option : Option Shown → Shown
  | none => word "None"
  | some x => call "Some" [x]

/-! ## on one line -/

mutual

/-- the value on one line -/
def inline : Shown → String
  | word s => s
  | call name args => name ++ "(" ++ ", ".intercalate (inlineItems args) ++ ")"
  | record name fields => name ++ " \x7b " ++ ", ".intercalate (inlineFields fields) ++ " \x7d"
  | list items => "[" ++ ", ".intercalate (inlineItems items) ++ "]"

def inlineItems : List Shown → List String
  | [] => []
  | x :: xs => inline x :: inlineItems xs

def inlineFields : List (String × Shown) → List String
  | [] => []
  | (name, x) :: fields => (name ++ ": " ++ inline x) :: inlineFields fields

end

/-! ## on several lines -/

/-- the blanks in front of a line `depth` levels in -/
def margin (depth : Nat) : String := String.ofList (List.replicate (4 * depth) ' ')

mutual

/-- the value on several lines, its first line being `depth` levels in -/
def block (depth : Nat) : Shown → String
  | word s => s
  | call name args => name ++ "(\n" ++ blockItems (depth + 1) args ++ margin depth ++ ")"
  | record name fields =>
    name ++ " \x7b\n" ++ blockFields (depth + 1) fields ++ margin depth ++ "\x7d"
  | list [] => "[]"
  | list (x :: xs) =>
    "[\n" ++ margin (depth + 1) ++ block (depth + 1) x ++ ",\n" ++ blockItems (depth + 1) xs
      ++ margin depth ++ "]"

def blockItems (depth : Nat) : List Shown → String
  | [] => ""
  | x :: xs => margin depth ++ block depth x ++ ",\n" ++ blockItems depth xs

def blockFields (depth : Nat) : List (String × Shown) → String
  | [] => ""
  | (name, x) :: fields =>
    margin depth ++ name ++ ": " ++ block depth x ++ ",\n" ++ blockFields depth fields

end

def indented (x : Shown) : String := block 0 x

end Shown

end CallbackLocks
