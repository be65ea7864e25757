import Fleet.Binary64.Shortest

/-!
# Values

What a node means: nothing, a boolean, a number, a text, or a collection of values, with a tag of the
user's or without.  Two mappings are the same if they give the same values to the same keys, in whatever
order; an integer and a real number are never the same.
-/

namespace Fleet.Yaml

/-- A number. -/
inductive Number where
  | integer (n : Int)
  | real (x : Binary64)
  deriving DecidableEq, Inhabited

def Number.text : Number → String
  | .integer n => toString n
  | .real x => x.text

def Number.same : Number → Number → Bool
  | .integer m, .integer n => m == n
  | .real x, .real y => x.same y
  | _, _ => false

/-- What a node means. -/
inductive Value where
  | null
  | bool (b : Bool)
  | number (n : Number)
  | text (s : String)
  | sequence (items : List Value)
  | mapping (entries : List (Value × Value))
  | tagged (tag : String) (content : Value)
  deriving Inhabited

namespace Value

mutual

def same : Value → Value → Bool
  | .null, .null => true
  | .bool a, .bool b => a == b
  | .number m, .number n => m.same n
  | .text s, .text t => s == t
  | .sequence xs, .sequence ys => sameItems xs ys
  | .mapping es, .mapping fs => es.length == fs.length && allIn es fs
  | .tagged s v, .tagged t w => s == t && same v w
  | _, _ => false

/-- Whether two lists hold the same values in the same order. -/
def sameItems : List Value → List Value → Bool
  | [], [] => true
  | x :: xs, y :: ys => same x y && sameItems xs ys
  | _, _ => false

/-- Whether each entry is the same as one of the others. -/
def allIn : List (Value × Value) → List (Value × Value) → Bool
  | [], _ => true
  | e :: es, fs => (fs.any fun f => sameEntry e f) && allIn es fs

/-- Whether two entries have the same keys and the same values. -/
def sameEntry : Value × Value → Value × Value → Bool
  | (k, v), f => same k f.1 && same v f.2

end

/-- Whether no two entries have the same key. -/
def Distinct (entries : List (Value × Value)) : Prop :=
  entries.Pairwise fun a b => same a.1 b.1 = false

instance : DecidablePred Distinct := fun entries =>
  inferInstanceAs (Decidable (entries.Pairwise _))

/-- The text of a value that is no collection and has no tag; nothing is the empty text. -/
def scalarText? : Value → Option String
  | .null => some ""
  | .bool b => some (if b then "true" else "false")
  | .number n => some n.text
  | .text s => some s
  | _ => none

end Value

end Fleet.Yaml
