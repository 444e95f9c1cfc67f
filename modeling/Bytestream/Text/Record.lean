/-!
The one-line text of a record: its name, then its fields in order between braces. An open record
ends in two dots, which say that further fields exist and are not shown.
-/

namespace Bytestream.Text

/-- One field as `name: text`. -/
def field (name text : String) : String := name ++ ": " ++ text

/-- A record whose fields are all shown. -/
def closedRecord (name : String) (fields : List (String × String)) : String :=
  name ++ " \x7b " ++ ", ".intercalate (fields.map fun (n, t) => field n t) ++ " \x7d"

/-- A record that hides part of its fields. -/
def openRecord (name : String) (fields : List (String × String)) : String :=
  name ++ " \x7b " ++ ", ".intercalate (fields.map (fun (n, t) => field n t) ++ [".."]) ++ " \x7d"

/-- An optional value: `None`, or `Some` around its text. -/
def optional : Option String → String
  | none => "None"
  | some text => "Some(" ++ text ++ ")"

/-- A name between double quotes. -/
def quoted (name : String) : String := "\"" ++ name ++ "\""

end Bytestream.Text
