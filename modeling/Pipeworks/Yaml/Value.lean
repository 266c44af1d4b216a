/-
YAML values without their layout, which of them are the same, and their text for diagnosis.
-/
import Pipeworks.Text.Quoted
import Pipeworks.Yaml.Plain

namespace Pipeworks.Yaml

inductive Value where
  | null
  | bool (b : Bool)
  | number (n : Number)
  | string (s : String)
  | sequence (items : List Value)
  | mapping (entries : List (Value × Value))
  | tagged (tag : String) (content : Value)

/-- A tag without the exclamation mark in front. -/
def bareTag (tag : String) : String :=
  match tag.toList with
  | '!' :: c :: cs => String.ofList (c :: cs)
  | _ => tag

namespace Value

mutual

/-- Whether two values are the same; the order of a mapping's entries does not matter. -/
def same : Value → Value → Bool
  | .null, .null => true
  | .bool a, .bool b => a == b
  | .number a, .number b => a.same b
  | .string a, .string b => a == b
  | .sequence as, .sequence bs => sameItems as bs
  | .mapping as, .mapping bs => as.length == bs.length && entriesWithin bs as
  | .tagged t a, .tagged u b => bareTag t == bareTag u && same a b
  | _, _ => false

def sameItems : List Value → List Value → Bool
  | [], [] => true
  | a :: as, b :: bs => same a b && sameItems as bs
  | _, _ => false

def entriesWithin (bs : List (Value × Value)) : List (Value × Value) → Bool
  | [] => true
  | (k, v) :: as => bs.any (fun (l, w) => same k l && same v w) && entriesWithin bs as

end

/-- A key as it stands in front of a colon, unless it is shown like any other value. -/
def shortKey? : Value → Option String
  | .bool b => some (toString b)
  | .number n => some n.text
  | .string s => some (Text.quoted s)
  | _ => none

mutual

/-- The text of a value for diagnosis. -/
def diagnostic : Value → String
  | .null => "Null"
  | .bool b => "Bool(" ++ toString b ++ ")"
  | .number n => "Number(" ++ n.text ++ ")"
  | .string s => "String(" ++ Text.quoted s ++ ")"
  | .sequence items => "Sequence [" ++ ", ".intercalate (diagnosticItems items) ++ "]"
  | .mapping entries => "Mapping \x7b" ++ ", ".intercalate (diagnosticEntries entries) ++ "\x7d"
  | .tagged tag v =>
    "TaggedValue \x7b tag: !" ++ bareTag tag ++ ", value: " ++ v.diagnostic ++ " \x7d"

def diagnosticItems : List Value → List String
  | [] => []
  | v :: vs => v.diagnostic :: diagnosticItems vs

def diagnosticEntries : List (Value × Value) → List String
  | [] => []
  | (k, v) :: es =>
    ((k.shortKey?.getD k.diagnostic) ++ ": " ++ v.diagnostic) :: diagnosticEntries es

end

/-- The value without its outer tags. -/
def untagged : Value → Value
  | .tagged _ v => v.untagged
  | v => v

mutual

/-- Whether a tag stands anywhere in the value. -/
def holdsTag : Value → Bool
  | .tagged _ _ => true
  | .sequence items => itemsHoldTag items
  | .mapping entries => entriesHoldTag entries
  | _ => false

def itemsHoldTag : List Value → Bool
  | [] => false
  | v :: vs => v.holdsTag || itemsHoldTag vs

def entriesHoldTag : List (Value × Value) → Bool
  | [] => false
  | (k, v) :: es => k.holdsTag || v.holdsTag || entriesHoldTag es

end

end Value

end Pipeworks.Yaml
