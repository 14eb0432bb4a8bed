import TreeListing.Text
import TreeListing.Value

/-!
# Values as JSON text

The printed form has one member or item to a line, each level indented by two spaces. A list or an
object without members is printed on one line.
-/

namespace TreeListing.Value

def jsonChar (c : Char) : List Char :=
  match c with
  | '"' => ['\\', '"']
  | '\\' => ['\\', '\\']
  | '\n' => ['\\', 'n']
  | '\r' => ['\\', 'r']
  | '\t' => ['\\', 't']
  | '\x08' => ['\\', 'b']
  | '\x0c' => ['\\', 'f']
  | c =>
    if c.toNat < 0x20 then
      ['\\', 'u', '0', '0', Text.hexDigit (c.toNat / 16), Text.hexDigit (c.toNat % 16)]
    else [c]

def jsonString (s : String) : String :=
  String.ofList ('"' :: s.toList.flatMap jsonChar ++ ['"'])

def jsonBreak (level : Nat) : String :=
  String.ofList ('\n' :: Indent.levels level)

def jsonBlock (opening closing : String) (level : Nat) (items : List String) : String :=
  if items.isEmpty then opening ++ closing
  else
    opening ++ jsonBreak (level + 1) ++ (("," ++ jsonBreak (level + 1)).intercalate items)
      ++ jsonBreak level ++ closing

mutual
def jsonAt (level : Nat) : Value → String
  | null => "null"
  | bool value => if value then "true" else "false"
  | integer value => toString value
  | fraction written => written
  | string value => jsonString value
  | list items => jsonBlock "[" "]" level (jsonItems (level + 1) items)
  | object members => jsonBlock "\x7b" "\x7d" level (jsonMembers (level + 1) members)

def jsonItems (level : Nat) : List Value → List String
  | [] => []
  | item :: rest => jsonAt level item :: jsonItems level rest

def jsonMembers (level : Nat) : List (String × Value) → List String
  | [] => []
  | (name, value) :: rest =>
    (jsonString name ++ ": " ++ jsonAt level value) :: jsonMembers level rest
end

def json (v : Value) : String := v.jsonAt 0

end TreeListing.Value
