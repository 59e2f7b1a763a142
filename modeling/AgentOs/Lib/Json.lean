import AgentOs.Lib.Text

/-!
JSON values, the two writers and the reader the modelled programs use.

* `Json.pretty` writes with two-space indentation and keeps characters outside
  ASCII as they are.
* `Json.dumps` writes on one line with sorted keys and escapes every character
  outside printable ASCII.
* `Json.loads` reads a text; `none` is the decoder's error.

Numbers keep their text: nothing here computes with them. A lone surrogate
escape, which is not a character, reads as U+FFFD.
-/

namespace AgentOs.Lib

/-- A JSON value. Object members keep their order; keys are unique. -/
inductive Json where
  | null
  | bool (b : Bool)
  | num (text : String)
  | str (s : String)
  | arr (items : List Json)
  | obj (fields : List (String × Json))
deriving Repr

namespace Json

/-- `value.get(key)` on an object. -/
def field? (key : String) : Json → Option Json
  | .obj fields => fields.lookup key
  | _ => none

/-- The items of an array. -/
def items? : Json → Option (List Json)
  | .arr items => some items
  | _ => none

/-- Set a member: the value of a repeated key replaces the earlier one. -/
def setField (fields : List (String × Json)) (key : String) (value : Json) :
    List (String × Json) :=
  if fields.any (·.1 == key) then
    fields.map fun p => if p.1 == key then (key, value) else p
  else fields ++ [(key, value)]

/-! ### Writing -/

def hexDigit (n : Nat) : Char :=
  if n < 10 then Char.ofNat (48 + n) else Char.ofNat (87 + n)

/-- `\uXXXX` for a code unit. -/
def unicodeEscape (n : Nat) : List Char :=
  ['\\', 'u', hexDigit (n / 4096 % 16), hexDigit (n / 256 % 16), hexDigit (n / 16 % 16),
    hexDigit (n % 16)]

/-- The escapes with a letter of their own. -/
def shortEscape (c : Char) : Option Char :=
  if c = '"' then some '"' else if c = '\\' then some '\\'
  else if c = '\n' then some 'n' else if c = '\r' then some 'r' else if c = '\t' then some 't'
  else if c.toNat = 8 then some 'b' else if c.toNat = 12 then some 'f' else none

def escapeChar (ascii : Bool) (c : Char) : List Char :=
  match shortEscape c with
  | some letter => ['\\', letter]
  | none =>
      if c.toNat < 0x20 then unicodeEscape c.toNat
      else if ascii && c.toNat > 0x7e then
        if c.toNat < 0x10000 then unicodeEscape c.toNat
        else unicodeEscape (0xd800 + (c.toNat - 0x10000) / 0x400) ++
          unicodeEscape (0xdc00 + (c.toNat - 0x10000) % 0x400)
      else [c]

def quote (ascii : Bool) (s : String) : String :=
  "\"" ++ .ofList (s.toList.flatMap (escapeChar ascii)) ++ "\""

def indentation (depth : Nat) : String :=
  .ofList (List.replicate (2 * depth) ' ')

mutual
/-- The indented form of a value that stands at nesting depth `depth`. -/
def prettyAt (depth : Nat) : Json → String
  | .null => "null"
  | .bool b => if b then "true" else "false"
  | .num text => text
  | .str s => quote false s
  | .arr [] => "[]"
  | .arr (item :: items) =>
      "[\n" ++ indentation (depth + 1) ++ prettyAt (depth + 1) item ++
        prettyItems (depth + 1) items ++ "\n" ++ indentation depth ++ "]"
  | .obj [] => "\x7b\x7d"
  | .obj ((key, value) :: fields) =>
      "\x7b\n" ++ indentation (depth + 1) ++ quote false key ++ ": " ++
        prettyAt (depth + 1) value ++ prettyFields (depth + 1) fields ++ "\n" ++
        indentation depth ++ "\x7d"

def prettyItems (depth : Nat) : List Json → String
  | [] => ""
  | item :: items =>
      ",\n" ++ indentation depth ++ prettyAt depth item ++ prettyItems depth items

def prettyFields (depth : Nat) : List (String × Json) → String
  | [] => ""
  | (key, value) :: fields =>
      ",\n" ++ indentation depth ++ quote false key ++ ": " ++ prettyAt depth value ++
        prettyFields depth fields
end

/-- `model_dump_json(indent=2)`. -/
def pretty (j : Json) : String :=
  prettyAt 0 j

mutual
/-- `json.dumps(value, sort_keys=True)`. -/
def dumps : Json → String
  | .null => "null"
  | .bool b => if b then "true" else "false"
  | .num text => text
  | .str s => quote true s
  | .arr items => "[" ++ Text.join ", " (dumpsItems items) ++ "]"
  | .obj fields =>
      "\x7b" ++ Text.join ", "
        (((dumpsFields fields).mergeSort (fun a b => decide (a.1 ≤ b.1))).map (·.2)) ++ "\x7d"

def dumpsItems : List Json → List String
  | [] => []
  | item :: items => dumps item :: dumpsItems items

/-- Each member with its key, for sorting. -/
def dumpsFields : List (String × Json) → List (String × String)
  | [] => []
  | (key, value) :: fields =>
      (key, quote true key ++ ": " ++ dumps value) :: dumpsFields fields
end

/-! ### Reading -/

/-- The white space JSON allows between tokens. -/
def skipWs (cs : List Char) : List Char :=
  cs.dropWhile fun c => c = ' ' || c = '\t' || c = '\n' || c = '\r'

def hexValue (c : Char) : Option Nat :=
  if '0' ≤ c && c ≤ '9' then some (c.toNat - 48)
  else if 'a' ≤ c && c ≤ 'f' then some (c.toNat - 87)
  else if 'A' ≤ c && c ≤ 'F' then some (c.toNat - 55)
  else none

/-- The four hexadecimal digits of a `\u` escape. -/
def hex4 : List Char → Option (Nat × List Char)
  | a :: b :: c :: d :: cs => do
      return (((← hexValue a) * 16 + (← hexValue b)) * 256 +
        ((← hexValue c) * 16 + (← hexValue d)), cs)
  | _ => none

/-- A low surrogate escape directly after a high one. -/
def lowSurrogate : List Char → Option (Nat × List Char)
  | '\\' :: 'u' :: cs =>
      match hex4 cs with
      | some (n, rest) => if 0xdc00 ≤ n && n ≤ 0xdfff then some (n, rest) else none
      | none => none
  | _ => none

def simpleEscape : Char → Option Char
  | '"' => some '"' | '\\' => some '\\' | '/' => some '/' | 'n' => some '\n' | 'r' => some '\r'
  | 't' => some '\t' | 'b' => some (Char.ofNat 8) | 'f' => some (Char.ofNat 12) | _ => none

/-- The rest of a string literal after its opening quote. -/
def stringBody : Nat → List Char → Option (List Char × List Char)
  | 0, _ => none
  | _ + 1, [] => none
  | _ + 1, '"' :: cs => some ([], cs)
  | n + 1, '\\' :: 'u' :: cs => do
      let (unit, rest) ← hex4 cs
      match if 0xd800 ≤ unit && unit ≤ 0xdbff then lowSurrogate rest else none with
      | some (low, rest') =>
          let (tail, out) ← stringBody n rest'
          return (Char.ofNat (0x10000 + (unit - 0xd800) * 0x400 + (low - 0xdc00)) :: tail, out)
      | none =>
          let (tail, out) ← stringBody n rest
          return ((if 0xd800 ≤ unit && unit ≤ 0xdfff then Char.ofNat 0xfffd
            else Char.ofNat unit) :: tail, out)
  | n + 1, '\\' :: c :: cs => do
      let plain ← simpleEscape c
      let (tail, out) ← stringBody n cs
      return (plain :: tail, out)
  | n + 1, c :: cs =>
      if c.toNat < 0x20 || c = '\\' then none
      else do
        let (tail, out) ← stringBody n cs
        return (c :: tail, out)

def digits (cs : List Char) : List Char × List Char :=
  (cs.takeWhile Char.isDigit, cs.dropWhile Char.isDigit)

/-- An optional fraction: a dot followed by at least one digit. -/
def fraction : List Char → List Char × List Char
  | '.' :: cs => if (digits cs).1 = [] then ([], '.' :: cs) else ('.' :: (digits cs).1, (digits cs).2)
  | cs => ([], cs)

/-- An optional exponent: `e` or `E`, a sign or none, at least one digit. -/
def exponent : List Char → List Char × List Char
  | e :: cs =>
      if e = 'e' || e = 'E' then
        let (sign, rest) := match cs with
          | '+' :: r => (['+'], r)
          | '-' :: r => (['-'], r)
          | r => ([], r)
        if (digits rest).1 = [] then ([], e :: cs)
        else (e :: sign ++ (digits rest).1, (digits rest).2)
      else ([], e :: cs)
  | [] => ([], [])

/-- A number literal: an optional minus sign, an integer without leading zeros,
a fraction and an exponent. -/
def number (cs : List Char) : Option (Json × List Char) :=
  let (sign, rest) := match cs with
    | '-' :: r => (['-'], r)
    | r => ([], r)
  let (int, rest) := match rest with
    | '0' :: r => (['0'], r)
    | r => digits r
  if int = [] then none
  else
    let (frac, rest) := fraction rest
    let (exp, rest) := exponent rest
    some (.num (.ofList (sign ++ int ++ frac ++ exp)), rest)

/-- The literal words, with the three constants the decoder also accepts. -/
def keyword (cs : List Char) : Option (Json × List Char) :=
  let table : List (String × Json) := [("null", .null), ("true", .bool true),
    ("false", .bool false), ("NaN", .num "nan"), ("Infinity", .num "inf"),
    ("-Infinity", .num "-inf")]
  (table.find? fun p => p.1.toList.isPrefixOf cs).map fun p =>
    (p.2, cs.drop p.1.toList.length)

mutual
/-- One value at the start of the text. The first argument bounds the nesting
and the number of items read; the length of the text suffices. -/
def value : Nat → List Char → Option (Json × List Char)
  | 0, _ => none
  | n + 1, '"' :: cs => (stringBody n cs).map fun p => (.str (.ofList p.1), p.2)
  | n + 1, '[' :: cs =>
      match skipWs cs with
      | ']' :: rest => some (.arr [], rest)
      | rest => (items n rest).map fun p => (.arr p.1, p.2)
  | n + 1, '{' :: cs =>
      match skipWs cs with
      | '}' :: rest => some (.obj [], rest)
      | rest => (members n [] rest).map fun p => (.obj p.1, p.2)
  | _ + 1, cs => (keyword cs).orElse fun _ => number cs

/-- The items of a nonempty array, up to its closing bracket. -/
def items : Nat → List Char → Option (List Json × List Char)
  | 0, _ => none
  | n + 1, cs => do
      let (item, rest) ← value n (skipWs cs)
      match skipWs rest with
      | ']' :: out => return ([item], out)
      | ',' :: out =>
          let (more, out') ← items n out
          return (item :: more, out')
      | _ => none

/-- The members of a nonempty object, up to its closing brace. -/
def members : Nat → List (String × Json) → List Char → Option (List (String × Json) × List Char)
  | 0, _, _ => none
  | n + 1, seen, cs =>
      match skipWs cs with
      | '"' :: body => do
          let (key, rest) ← stringBody n body
          match skipWs rest with
          | ':' :: out =>
              let (item, out') ← value n (skipWs out)
              let seen := setField seen (.ofList key) item
              match skipWs out' with
              | '}' :: final => return (seen, final)
              | ',' :: more => members n seen more
              | _ => none
          | _ => none
      | _ => none
end

/-- `json.loads(text)`: one value with white space around it. -/
def loads (text : String) : Option Json :=
  match value (text.toList.length + 2) (skipWs text.toList) with
  | some (j, rest) => if skipWs rest = [] then some j else none
  | none => none

/-! ### Text of a decoded value -/

/-- `repr` of a text: single quotes unless it contains one and no double quote. -/
def reprText (s : String) : String :=
  let q := if s.toList.contains '\'' && !s.toList.contains '"' then '"' else '\''
  .ofList (q :: s.toList.flatMap (fun c =>
    if c = '\\' then ['\\', '\\'] else if c = q then ['\\', c]
    else if c = '\n' then ['\\', 'n'] else if c = '\r' then ['\\', 'r']
    else if c = '\t' then ['\\', 't'] else [c]) ++ [q])

mutual
/-- `repr` of a decoded value. -/
def repr : Json → String
  | .null => "None"
  | .bool b => if b then "True" else "False"
  | .num text => text
  | .str s => reprText s
  | .arr items => "[" ++ Text.join ", " (reprItems items) ++ "]"
  | .obj fields => "\x7b" ++ Text.join ", " (reprFields fields) ++ "\x7d"

def reprItems : List Json → List String
  | [] => []
  | item :: items => repr item :: reprItems items

def reprFields : List (String × Json) → List String
  | [] => []
  | (key, value) :: fields => (reprText key ++ ": " ++ repr value) :: reprFields fields
end

/-- `str` of a decoded value. -/
def toText : Json → String
  | .str s => s
  | j => repr j

end Json

end AgentOs.Lib
