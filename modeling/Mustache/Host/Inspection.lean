import Mustache.Host.Basic

/-!
# Values shown for inspection

The form in which a value is shown to someone who develops a host program: its kind and, in
parentheses, what it holds. Of a deferred value only its state is shown.
-/

namespace Mustache

/-- The state of a slot in a word. -/
def Slot.state : Slot → String
  | .pending => "pending"
  | .ready _ => "ready"
  | .dropped => "dropped"

namespace Host

mutual

/-- A value as it is shown for inspection. -/
def inspect (host : Host) : Value → String
  | .bool value => "Bool(" ++ (if value then "true" else "false") ++ ")"
  | .int value => "Int(" ++ toString value.toInt ++ ")"
  | .float value => "Float(" ++ NumberFormat.inspection.write value ++ ")"
  | .str text => "Str(" ++ Text.quoted text ++ ")"
  | .list items => "List([" ++ String.intercalate ", " (inspectItems host items) ++ "])"
  | .map entries =>
    "Map(\x7b" ++ String.intercalate ", " (inspectEntries host entries) ++ "\x7d)"
  | .document document => "Node(" ++ document.text ++ ")"
  | .deferred number => "Deferred(" ++ (host.slot number).state ++ ")"
  | .object identity => "Object(" ++ toString identity ++ ")"

/-- The values of a list as they are shown for inspection. -/
def inspectItems (host : Host) : List Value → List String
  | [] => []
  | item :: rest => inspect host item :: inspectItems host rest

/-- Named values as they are shown for inspection. -/
def inspectEntries (host : Host) : List (String × Value) → List String
  | [] => []
  | (name, value) :: rest =>
    (Text.quoted name ++ ": " ++ inspect host value) :: inspectEntries host rest

end

end Host

end Mustache
