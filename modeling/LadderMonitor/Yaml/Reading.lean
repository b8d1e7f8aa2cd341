import LadderMonitor.Yaml.Content
import LadderMonitor.Yaml.Node

namespace LadderMonitor.Yaml

namespace Node

def tag : Node → Tag
  | scalar tag _ | sequence tag _ | mapping tag _ => tag
  | enclosing isMapping => if isMapping then .mapping else .sequence

mutual

/-- The text of a scalar, or of the scalar that stands for a mapping. -/
def text : Node → Except Problem String
  | scalar _ text => .ok text
  | mapping _ entries => defaultText entries
  | _ => .error .malformed

def defaultText : List (Node × Node) → Except Problem String
  | [] => .error .malformed
  | (key, value) :: rest => if key.tag = .default then value.text else defaultText rest

end

def checkKey (key : Value) : Except Problem Value :=
  if key.isKey then .ok key else .error .malformed

/-- The entries of a mapping, out of those that were merged into it and its own ones. -/
def join (entries : List (Value × Value) × List (Value × Value)) : List (Value × Value) :=
  (entries.1 ++ entries.2).foldl (fun all e => Value.put all e.1 e.2) []

mutual

def value : Node → Except Problem Value
  | scalar tag text => Content.value tag text
  | sequence .sequence items => .list <$> values items
  | sequence .orderedMap items => .list <$> pairs items
  | sequence .pairs items => .list <$> pairs items
  | sequence _ _ => .error .malformed
  | mapping .mapping entries => (.mapping ∘ join) <$> entryValues entries
  | mapping .set entries => (fun e => .set ((join e).map (·.1))) <$> entryValues entries
  | mapping tag entries => do Content.value tag (← defaultText entries)
  | enclosing isMapping => .ok (.enclosing isMapping)

def values : List Node → Except Problem (List Value)
  | [] => .ok []
  | n :: rest => do return (← n.value) :: (← values rest)

def pairs : List Node → Except Problem (List Value)
  | [] => .ok []
  | mapping _ [(key, value)] :: rest => do
    let pair := [← key.value, ← value.value]
    return .list pair :: (← pairs rest)
  | _ => .error .malformed

/-- The entries that a mapping takes over by its merge keys, and its own entries. -/
def entryValues : List (Node × Node) →
    Except Problem (List (Value × Value) × List (Value × Value))
  | [] => .ok ([], [])
  | (key, value) :: rest => do
    if key.tag = .merge then
      let found ← mergeValues value
      let (merged, own) ← entryValues rest
      return (found ++ merged, own)
    else
      let k ← if key.tag = .default then .text <$> key.text else key.value
      let entry := (← checkKey k, ← value.value)
      let (merged, own) ← entryValues rest
      return (merged, entry :: own)

/-- The entries under a merge key: those of a mapping, or of a list of mappings, of which the
earlier ones override the later ones. -/
def mergeValues : Node → Except Problem (List (Value × Value))
  | mapping _ entries => do
    let (merged, own) ← entryValues entries
    return merged ++ own
  | sequence _ items => mergeAll items
  | enclosing true => .ok []
  | _ => .error .malformed

/-- The entries of mappings, the last mapping first. -/
def mergeAll : List Node → Except Problem (List (Value × Value))
  | [] => .ok []
  | mapping _ entries :: rest => do
    let (merged, own) ← entryValues entries
    return (← mergeAll rest) ++ merged ++ own
  | enclosing true :: rest => mergeAll rest
  | _ => .error .malformed

end

end Node

/-- The value of the only document of a text; a text without document has none. -/
def read (text : List Char) : Except Problem Value := do
  match ← document text with
  | none => return .null
  | some root => root.value

end LadderMonitor.Yaml
