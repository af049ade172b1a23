import InteriorPoint.Decimal.Shortest
import InteriorPoint.Text.Quoted

/-! Values of settings as a caller may hand them over, with the text that messages show. -/

namespace InteriorPoint.Setting

/-- A value of any of the kinds that settings come in. -/
inductive Value where
  | absent
  | bool (value : Bool)
  | int (value : Int)
  | float (value : Float)
  | text (value : String)
  | list (items : List Value)
  | map (pairs : List (String × Value))

/-- The name of the kind of a value. -/
def Value.kind : Value → String
  | .absent => "NoneType"
  | .bool _ => "bool"
  | .int _ => "int"
  | .float _ => "float"
  | .text _ => "str"
  | .list _ => "list"
  | .map _ => "dict"

mutual

/-- The text of a value: brackets around lists, braces around maps, quotes around texts. -/
def Value.render : Value → String
  | .absent => "None"
  | .bool true => "True"
  | .bool false => "False"
  | .int n => toString n
  | .float x => Decimal.Layout.plain.render x
  | .text s => Text.quoted s
  | .list items => "[" ++ ", ".intercalate (Value.renderItems items) ++ "]"
  | .map pairs => "\x7b" ++ ", ".intercalate (Value.renderPairs pairs) ++ "\x7d"

def Value.renderItems : List Value → List String
  | [] => []
  | item :: rest => item.render :: Value.renderItems rest

def Value.renderPairs : List (String × Value) → List String
  | [] => []
  | (key, value) :: rest =>
      (Text.quoted key ++ ": " ++ value.render) :: Value.renderPairs rest

end

/-- The value under a key of a map. -/
def lookup? (key : String) (pairs : List (String × Value)) : Option Value :=
  (pairs.find? fun pair => pair.1 == key).map (·.2)

end InteriorPoint.Setting
