import Autoland.Text.Blank

/-! Environment files: one `KEY=value` a line. -/

namespace Autoland.Text

/-- Reads a line that is not blank and no comment. `export` may stand before the key, and quotes
around the value. -/
def readAssignment? (line : List Char) : Option (String × String) := do
  let (key, value) ← cutAt? '=' ((strip? "export ".toList line).getD line)
  let key := trim key
  if key.isEmpty then none
  else some (String.ofList key, String.ofList (trimOf '\'' (trimOf '"' (trim value))))

def readEnvironment (contents : String) : List (String × String) :=
  ((lines contents.toList).map trim).filterMap fun line =>
    if line.isEmpty || line.head? = some '#' then none else readAssignment? line

end Autoland.Text
