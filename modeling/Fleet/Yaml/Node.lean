import Fleet.Yaml.Token

/-!
# Nodes

A document is a tree of scalars, sequences and mappings, each with a tag or none.  An alias stands for
another node of the document, which it names by the number of that node's anchor.
-/

namespace Fleet.Yaml

/-- A tree of scalars and collections. -/
inductive Node where
  | scalar (tag : Option String) (style : ScalarStyle) (text : String)
  | sequence (tag : Option String) (items : List Node)
  | mapping (tag : Option String) (entries : List (Node × Node))
  | alias (anchor : Nat)
  deriving Inhabited

namespace Node

def plain (text : String) : Node := .scalar none .plain text

def blank : Node := plain ""

def tag? : Node → Option String
  | .scalar tag .. | .sequence tag _ | .mapping tag _ => tag
  | .alias _ => none

end Node

/-- A document: its tree, and the nodes that its anchors name. -/
structure Document where
  root : Node
  /-- the anchored nodes by number -/
  anchored : List (Nat × Node)
  /-- how many parts the document has; a collection has a beginning and an end -/
  size : Nat
  deriving Inhabited

/-- The node that an alias stands for. -/
def Document.target? (d : Document) (anchor : Nat) : Option Node :=
  d.anchored.lookup anchor

end Fleet.Yaml
