import ShellWalk.Json.Basic
import ShellWalk.Text.Numeral

set_option autoImplicit false

namespace ShellWalk.Json

def Number.render : Number → String
  | .integer value => String.ofList (Text.signed value)
  | .double negative size =>
      let (digits, exponent) := size.decimal
      (if negative then "-" else "") ++ String.ofList (Text.decimal digits) ++ "e" ++
        String.ofList (Text.signed exponent)

def hexDigit (n : Nat) : Char := (Nat.toDigits 16 n).headD '0'

def escapeChar (c : Char) : String :=
  if c = '\x22' then "\\\""
  else if c = '\\' then "\\\\"
  else if c.toNat < 0x20 then
    "\\u00" ++ String.ofList [hexDigit (c.toNat / 16), hexDigit (c.toNat % 16)]
  else String.ofList [c]

def quote (text : String) : String :=
  text.toList.foldl (fun done c => done ++ escapeChar c) "\"" ++ "\""

mutual

def renderTo (done : String) : Json → String
  | .null => done ++ "null"
  | .bool true => done ++ "true"
  | .bool false => done ++ "false"
  | .number value => done ++ value.render
  | .string value => done ++ quote value
  | .array [] => done ++ "[]"
  | .array (first :: rest) => renderItems (renderTo (done ++ "[") first) rest ++ "]"
  | .object [] => done ++ "\x7b\x7d"
  | .object ((name, value) :: rest) =>
      renderMembers (renderTo (done ++ "\x7b" ++ quote name ++ ":") value) rest ++ "\x7d"

def renderItems (done : String) : List Json → String
  | [] => done
  | item :: rest => renderItems (renderTo (done ++ ",") item) rest

def renderMembers (done : String) : List (String × Json) → String
  | [] => done
  | (name, value) :: rest =>
      renderMembers (renderTo (done ++ "," ++ quote name ++ ":") value) rest

end

def render (json : Json) : String := renderTo "" json

end ShellWalk.Json
