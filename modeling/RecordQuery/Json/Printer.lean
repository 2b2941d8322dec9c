import RecordQuery.Json.Basic

/-!
# Writing JSON

Values are written compactly, or over several lines with two spaces for each level. Strings escape
quotes, backslashes and control characters and nothing else.

## Floating-point numbers

Shortest digits, a tie going to the even one; positional while the decimal exponent is within the
bounds of the format, with `.0` behind a whole number, and with an exponent otherwise. NaN and the
infinities have no form in JSON and are written as `null`.
-/

namespace RecordQuery.Json

/-! ## Atoms -/

/-- A hexadecimal digit in lower case. -/
def hexDigit (n : Nat) : Char := Nat.digitChar (n % 16)

/-- A character as it stands inside a string. -/
def escapeChar (c : Char) : Text :=
  if c = '"' then ['\\', '"']
  else if c = '\\' then ['\\', '\\']
  else if c = '\x08' then ['\\', 'b']
  else if c = '\x0c' then ['\\', 'f']
  else if c = '\n' then ['\\', 'n']
  else if c = '\r' then ['\\', 'r']
  else if c = '\t' then ['\\', 't']
  else if c.toNat < 0x20 then ['\\', 'u', '0', '0', hexDigit (c.toNat / 16), hexDigit c.toNat]
  else [c]

/-- A text as a string. -/
def quote (t : Text) : Text := '"' :: (t.flatMap escapeChar ++ ['"'])

/-- The places of the decimal point, counted from the first digit, between which a number is
written without an exponent. -/
def positionalRange : FloatFormat → Int × Int
  | .single => (-5, 13)
  | .double => (-4, 16)

/-- A number. -/
def Number.text : Number → Text
  | integer n => Text.ofInt n
  | real f (.finite negative m e) =>
    Binary.signText negative ++
      if m = 0 then ['0', '.', '0']
      else
        let d := Binary.shortest .toEven f m e
        let point := ((Text.ofNat d.digits).length : Int) + d.exponent
        let (least, most) := positionalRange f
        if least ≤ point && point ≤ most then Binary.positional ['.', '0'] d
        else Binary.scientific d
  | real _ _ => "null".toList

/-! ## Compact form -/

mutual

/-- A value without any spaces. -/
def compact : Json → Text
  | null => "null".toList
  | bool true => "true".toList
  | bool false => "false".toList
  | number n => n.text
  | string t => quote t
  | array [] => ['[', ']']
  | array (v :: items) => '[' :: (compact v ++ compactItems items ++ [']'])
  | object [] => ['\x7b', '\x7d']
  | object ((k, v) :: members) =>
    '\x7b' :: (quote k ++ [':'] ++ compact v ++ compactMembers members ++ ['\x7d'])

/-- Items after the first one, each behind a comma. -/
def compactItems : List Json → Text
  | [] => []
  | v :: items => ',' :: (compact v ++ compactItems items)

/-- Members after the first one, each behind a comma. -/
def compactMembers : List (Text × Json) → Text
  | [] => []
  | (k, v) :: members => ',' :: (quote k ++ [':'] ++ compact v ++ compactMembers members)

end

/-! ## Form over several lines -/

/-- The start of a line at a level. -/
def newline (level : Nat) : Text := '\n' :: List.replicate (2 * level) ' '

mutual

/-- A value over several lines, inside `level` containers. -/
def pretty (level : Nat) : Json → Text
  | array [] => ['[', ']']
  | array (v :: items) =>
    '[' :: (newline (level + 1) ++ pretty (level + 1) v ++ prettyItems (level + 1) items
      ++ newline level ++ [']'])
  | object [] => ['\x7b', '\x7d']
  | object ((k, v) :: members) =>
    '\x7b' :: (newline (level + 1) ++ quote k ++ [':', ' '] ++ pretty (level + 1) v
      ++ prettyMembers (level + 1) members ++ newline level ++ ['\x7d'])
  | v => compact v

/-- Items after the first one, each on its line. -/
def prettyItems (level : Nat) : List Json → Text
  | [] => []
  | v :: items => ',' :: (newline level ++ pretty level v ++ prettyItems level items)

/-- Members after the first one, each on its line. -/
def prettyMembers (level : Nat) : List (Text × Json) → Text
  | [] => []
  | (k, v) :: members =>
    ',' :: (newline level ++ quote k ++ [':', ' '] ++ pretty level v ++ prettyMembers level members)

end

end RecordQuery.Json
