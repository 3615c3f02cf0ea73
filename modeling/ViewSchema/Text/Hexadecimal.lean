/-! Hexadecimal digits, in either letter case, as escapes in JSON and YAML texts use them. -/

namespace ViewSchema.Text

def hexDigit? (c : Char) : Option Nat :=
  if '0' ≤ c ∧ c ≤ '9' then some (c.toNat - '0'.toNat)
  else if 'a' ≤ c ∧ c ≤ 'f' then some (c.toNat - 'a'.toNat + 10)
  else if 'A' ≤ c ∧ c ≤ 'F' then some (c.toNat - 'A'.toNat + 10)
  else none

/-- The number that some hexadecimal digits write, the highest first. -/
def hexNumber? (ds : List Char) : Option Nat :=
  ds.foldlM (fun n d => do return 16 * n + (← hexDigit? d)) 0

example : hexNumber? ['1', 'f', 'A'] = some 506 ∧ hexNumber? ['g'] = none ∧ hexNumber? [] = some 0 := by
  decide

end ViewSchema.Text
