/-!
# Layout of enclosed parts

Parts between brackets stand on one line, separated by commas, or on a line each, indented by four
blanks and ended by a comma.
-/

namespace PackedMap

/-- How parts between brackets are laid out. -/
inductive Layout
  | oneLine
  | indented
deriving DecidableEq, Repr

namespace Layout

/-- Lays out parts between two brackets.  On one line, `pad` stands inside each bracket. -/
def enclose (layout : Layout) (opening pad closing : String) (parts : List String) : String :=
  if parts.isEmpty then
    opening ++ closing
  else
    match layout with
    | oneLine => opening ++ pad ++ ", ".intercalate parts ++ pad ++ closing
    | indented =>
      opening ++ "\n" ++ String.join (parts.map fun part => "    " ++ part ++ ",\n") ++ closing

end Layout

end PackedMap
