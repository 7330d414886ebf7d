/-
The tokens of a YAML stream, each with the line that it starts on. Blocks that
are only indented have start and end tokens of their own, so that the grammar
of nodes need not know about columns.
-/
import ShapeFlow.Text

namespace ShapeFlow

namespace Yaml

inductive TokenKind where
  | streamStart
  | streamEnd
  | version (major minor : Nat)
  | tagShort (handle expansion : Text)
  | documentStart
  | documentEnd
  | blockSequence
  | blockMapping
  | blockEnd
  | flowSequence
  | flowSequenceEnd
  | flowMapping
  | flowMappingEnd
  | blockEntry
  | flowEntry
  | key
  | value
  | reference (name : Text)
  | anchor (name : Text)
  | tag (handle suffix : Text)
  | scalar (text : Text) (plain : Bool)
deriving DecidableEq

structure Token where
  kind : TokenKind
  line : Nat
deriving DecidableEq

end Yaml

end ShapeFlow
