import Cello.Lib.Json
import Cello.Lib.JsObject
import Cello.Lib.NumberText

/-!
# The texts of a value

What `typeof`, `String` and `JSON.stringify` say of a value whose type is not known.
-/

namespace Lib

namespace JsonText

mutual

def render : JsonText → List Char
  | .null => ['n', 'u', 'l', 'l']
  | .bool true => ['t', 'r', 'u', 'e']
  | .bool false => ['f', 'a', 'l', 's', 'e']
  | .num q => Number.text q
  | .str s => Json.quoted s
  | .arr items => '[' :: renderItems items
  | .obj members => '\x7b' :: renderMembers members

def renderItems : List JsonText → List Char
  | [] => [']']
  | [j] => render j ++ [']']
  | j :: k :: r => render j ++ ',' :: renderItems (k :: r)

def renderMembers : List (String × JsonText) → List Char
  | [] => ['\x7d']
  | [(n, j)] => Json.quoted n ++ ':' :: (render j ++ ['\x7d'])
  | (n, j) :: m :: r => Json.quoted n ++ ':' :: (render j ++ ',' :: renderMembers (m :: r))

end

end JsonText

/-- `String(n)`. -/
def JsNumber.toText : JsNumber → String
  | .nan => "NaN"
  | .negInf => "-Infinity"
  | .posInf => "Infinity"
  | .fin q => String.ofList (Number.text q)

namespace JsAny

/-- `typeof v`. -/
def typeOf : JsAny → String
  | undefined => "undefined"
  | null => "object"
  | bool _ => "boolean"
  | num _ => "number"
  | bigint _ => "bigint"
  | str _ => "string"
  | bytes _ => "object"
  | arr _ => "object"
  | obj _ => "object"

mutual

/-- `String(v)`. -/
def toText : JsAny → String
  | undefined => "undefined"
  | null => "null"
  | bool b => if b then "true" else "false"
  | num n => n.toText
  | bigint n => toString n
  | str s => s
  | bytes b => String.intercalate "," (b.map fun x => toString x.toNat)
  | arr items => String.intercalate "," (itemTexts items)
  | obj _ => "[object Object]"

def itemTexts : List JsAny → List String
  | [] => []
  | undefined :: rest => "" :: itemTexts rest
  | null :: rest => "" :: itemTexts rest
  | v :: rest => toText v :: itemTexts rest

end

/-- `JSON.stringify(v)` inside a template; a big integer makes it throw. -/
def jsonText : JsAny → Option String
  | undefined => some "undefined"
  | v => v.toJson.map fun j => String.ofList j.render

end JsAny

end Lib
