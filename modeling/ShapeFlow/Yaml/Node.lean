/-
The nodes of a YAML document: scalars, sequences and mappings, each with its tag
in short form and the line that it starts on. An alias stands for the node that
has its anchor; a document keeps the anchored nodes in a table, so that a node
may stand inside itself.
-/
import ShapeFlow.Yaml.Tag

namespace ShapeFlow

namespace Yaml

inductive Node where
  | scalar (tag value : Text) (line : Nat)
  | sequence (tag : Text) (items : List Node) (line : Nat)
  | mapping (tag : Text) (entries : List (Node × Node)) (line : Nat)
  /-- A node that stands elsewhere: its place in the table of anchored nodes. -/
  | reference (name : Text) (target : Nat) (line : Nat)

namespace Node

/-- The tag that shows; an alias has none of its own. -/
def tag : Node → Text
  | scalar tag _ _ => tag
  | sequence tag _ _ => tag
  | mapping tag _ _ => tag
  | reference _ _ _ => Text.empty

/-- The line that the node starts on, counted from one. -/
def line : Node → Nat
  | scalar _ _ line => line
  | sequence _ _ line => line
  | mapping _ _ line => line
  | reference _ _ line => line

/-- The text of a scalar or the name of an alias. -/
def value : Node → Text
  | scalar _ value _ => value
  | reference name _ _ => name
  | sequence _ _ _ | mapping _ _ _ => Text.empty

/-- Whether two nodes are written alike, as keys: of one kind and one text. -/
def sameKey : Node → Node → Bool
  | scalar _ a _, scalar _ b _ => a == b
  | reference a _ _, reference b _ _ => a == b
  | sequence _ _ _, sequence _ _ _ => true
  | mapping _ _ _, mapping _ _ _ => true
  | _, _ => false

/-- Whether a key asks for the entries of another mapping. -/
def isMerge : Node → Bool
  | scalar tag value _ => value == "<<" && tag == "!!merge"
  | _ => false

end Node

structure Document where
  root : Node
  anchored : List (Nat × Node) := []
  /-- No less than the number of characters that the document is made of. -/
  size : Nat := 0

def Document.deref (d : Document) (n : Node) : Node :=
  match n with
  | .reference _ target _ => (d.anchored.lookup target).getD n
  | _ => n

end Yaml

end ShapeFlow
