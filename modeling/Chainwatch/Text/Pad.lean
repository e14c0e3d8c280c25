/-!
# Columns

A text is brought to a width by blanks on one side. One that is wider stays as it is.
-/

namespace Chainwatch.Text

def gap (width : Nat) (s : String) : String :=
  String.ofList (List.replicate (width - s.toList.length) ' ')

def padRight (width : Nat) (s : String) : String :=
  s ++ gap width s

def padLeft (width : Nat) (s : String) : String :=
  gap width s ++ s

end Chainwatch.Text
