/-! # Outlines of values

A diagnostic shows a value as a named tree of its parts, either on one line or
with every part on a line of its own.
-/

namespace ImsProvisioning.Text

/-- The parts of a value that a diagnostic shows; of a record with `more` they are not all. -/
inductive Outline where
  | word (text : String)
  | tuple (name : String) (parts : List Outline)
  | record (name : String) (fields : List (String × Outline)) (more : Bool)

namespace Outline

mutual

def inline : Outline → String
  | .word text => text
  | .tuple name parts =>
    if parts.isEmpty then name else name ++ "(" ++ ", ".intercalate (inlineParts parts) ++ ")"
  | .record name fields more =>
    if fields.isEmpty && !more then name
    else
      name ++ " \x7b " ++
        ", ".intercalate (inlineFields fields ++ if more then [".."] else []) ++ " \x7d"

def inlineParts : List Outline → List String
  | [] => []
  | part :: parts => inline part :: inlineParts parts

def inlineFields : List (String × Outline) → List String
  | [] => []
  | (name, part) :: fields => (name ++ ": " ++ inline part) :: inlineFields fields

end

mutual

/-- The outline over several lines, the first of them continuing a line indented by `pad`. -/
def spread (pad : String) : Outline → String
  | .word text => text
  | .tuple name parts =>
    if parts.isEmpty then name
    else name ++ "(\n" ++ spreadParts (pad ++ "    ") parts ++ pad ++ ")"
  | .record name fields more =>
    if fields.isEmpty && !more then name
    else
      name ++ " \x7b\n" ++ spreadFields (pad ++ "    ") fields ++
        (if more then pad ++ "    ..\n" else "") ++ pad ++ "\x7d"

def spreadParts (pad : String) : List Outline → String
  | [] => ""
  | part :: parts => pad ++ spread pad part ++ ",\n" ++ spreadParts pad parts

def spreadFields (pad : String) : List (String × Outline) → String
  | [] => ""
  | (name, part) :: fields =>
    pad ++ name ++ ": " ++ spread pad part ++ ",\n" ++ spreadFields pad fields

end

def render (multiline : Bool) (o : Outline) : String :=
  if multiline then o.spread "" else o.inline

end Outline
end ImsProvisioning.Text
