import KeyholeMarkup.OrderedMap

/-! JSON values and their compact text. -/
namespace KeyholeMarkup

/-- A number is `mantissa` divided by ten to the power `places`; one without places is an
integer. Objects keep their fields in the order given. -/
inductive Json
  | null
  | bool (value : Bool)
  | number (mantissa : Int) (places : Nat)
  | string (text : String)
  | array (items : List Json)
  | object (fields : List (String × Json))
deriving Inhabited

namespace Json

def nat (n : Nat) : Json := .number n 0

def field? (fields : List (String × Json)) (name : String) : Option Json :=
  (fields.find? (·.1 == name)).map (·.2)

@[simp] theorem field?_nil (name : String) : field? [] name = none := rfl

@[simp] theorem field?_cons (other name : String) (value : Json) (rest : List (String × Json)) :
    field? ((other, value) :: rest) name = if other = name then some value else field? rest name := by
  by_cases same : other = name <;> simp [field?, same]

@[simp] theorem field?_append (first second : List (String × Json)) (name : String) :
    field? (first ++ second) name = (field? first name).or (field? second name) := by
  simp [field?, List.find?_append, Option.map_or]

/-- The object of a map: its fields are sorted by name, and of two with one name the later one stays. -/
def ofMap (fields : List (String × Json)) : Json :=
  .object (fields.foldl (fun entries (name, value) =>
    OrderedMap.set OrderedMap.textBefore name (fun _ => value) entries) [])

def hexDigit (n : Nat) : Char := "0123456789abcdef".toList[n]?.getD '0'

/-- One character inside a quoted text. Quotes, backslashes and the control characters below
U+0020 are escaped, with short forms where JSON has them. -/
def escapeChar (c : Char) : List Char :=
  if c = '"' then ['\\', '"']
  else if c = '\\' then ['\\', '\\']
  else if c = '\n' then ['\\', 'n']
  else if c = '\r' then ['\\', 'r']
  else if c = '\t' then ['\\', 't']
  else if c = '\x08' then ['\\', 'b']
  else if c = '\x0c' then ['\\', 'f']
  else if c.toNat < 0x20 then
    ['\\', 'u', '0', '0', hexDigit (c.toNat / 16), hexDigit (c.toNat % 16)]
  else [c]

def quote (text : String) : String :=
  String.ofList ('"' :: text.toList.flatMap escapeChar ++ ['"'])

def decimal (mantissa : Int) (places : Nat) : String :=
  if places = 0 then toString mantissa
  else
    let size := Nat.pow 10 places
    let sign := if mantissa < 0 then "-" else ""
    let fraction := toString (mantissa.natAbs % size)
    let zeros := String.ofList (List.replicate (places - fraction.length) '0')
    sign ++ toString (mantissa.natAbs / size) ++ "." ++ zeros ++ fraction

mutual

def render : Json → String
  | .null => "null"
  | .bool value => if value then "true" else "false"
  | .number mantissa places => decimal mantissa places
  | .string text => quote text
  | .array items => "[" ++ String.intercalate "," (renderItems items) ++ "]"
  | .object fields => "\x7b" ++ String.intercalate "," (renderFields fields) ++ "\x7d"

def renderItems : List Json → List String
  | [] => []
  | item :: rest => render item :: renderItems rest

def renderFields : List (String × Json) → List String
  | [] => []
  | (name, value) :: rest => (quote name ++ ":" ++ render value) :: renderFields rest

end

end Json
end KeyholeMarkup
