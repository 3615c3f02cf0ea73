import ViewSchema.Json.Basic

/-! JSON text of a value, on one line or indented. Only what the grammar forces is escaped: quotes,
backslashes and the control characters below the space. -/

namespace ViewSchema.Json

/-- The lower-case hexadecimal digit of a number below sixteen. -/
def hexDigit (n : Nat) : Char := Nat.digitChar n

def escape (c : Char) : String :=
  match c with
  | '"' => "\\\""
  | '\\' => "\\\\"
  | '\n' => "\\n"
  | '\r' => "\\r"
  | '\t' => "\\t"
  | _ =>
    if c.toNat == 8 then "\\b"
    else if c.toNat == 12 then "\\f"
    else if c.toNat < 32 then
      "\\u00" ++ .ofList [hexDigit (c.toNat / 16), hexDigit (c.toNat % 16)]
    else .singleton c

def quote (s : String) : String := "\"" ++ String.join (s.toList.map escape) ++ "\""

/-- A scalar in text; containers are laid out by the callers. -/
def renderScalar : Json → String
  | .bool true => "true"
  | .bool false => "false"
  | .number value => value.render
  | .string value => quote value
  | _ => "null"

mutual

/-- The value on one line, without spaces. -/
def compact : Json → String
  | .array items => "[" ++ ",".intercalate (compactItems items) ++ "]"
  | .object members => "\x7b" ++ ",".intercalate (compactMembers members) ++ "\x7d"
  | .null => renderScalar .null
  | .bool value => renderScalar (.bool value)
  | .number value => renderScalar (.number value)
  | .string value => renderScalar (.string value)

def compactItems : List Json → List String
  | [] => []
  | item :: rest => compact item :: compactItems rest

def compactMembers : List (String × Json) → List String
  | [] => []
  | (key, value) :: rest => (quote key ++ ":" ++ compact value) :: compactMembers rest

end

/-- The start of a line at a nesting depth, two spaces for each level. -/
def lineStart (depth : Nat) : String := .ofList ('\n' :: List.replicate (2 * depth) ' ')

/-- Lines between brackets, one level deeper than the brackets themselves; nothing at all between
the brackets of an empty container. -/
def bracket (opening closing : String) (depth : Nat) (lines : List String) : String :=
  if lines.isEmpty then opening ++ closing
  else
    opening ++ lineStart (depth + 1) ++ ("," ++ lineStart (depth + 1)).intercalate lines ++
      lineStart depth ++ closing

mutual

/-- The value over several lines, for a place at the given depth. -/
def prettyAt (depth : Nat) : Json → String
  | .array items => bracket "[" "]" depth (prettyItems (depth + 1) items)
  | .object members => bracket "\x7b" "\x7d" depth (prettyMembers (depth + 1) members)
  | .null => renderScalar .null
  | .bool value => renderScalar (.bool value)
  | .number value => renderScalar (.number value)
  | .string value => renderScalar (.string value)

def prettyItems (depth : Nat) : List Json → List String
  | [] => []
  | item :: rest => prettyAt depth item :: prettyItems depth rest

def prettyMembers (depth : Nat) : List (String × Json) → List String
  | [] => []
  | (key, value) :: rest => (quote key ++ ": " ++ prettyAt depth value) :: prettyMembers depth rest

end

def pretty (value : Json) : String := prettyAt 0 value

end ViewSchema.Json
