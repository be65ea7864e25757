import Fleet.Yaml.Node
import Fleet.Yaml.Plain

/-!
# From nodes to data

Readers take data out of the nodes of a document.  A reader fails on a node of the wrong kind.  Collections
may be nested 128 deep, and aliases followed a hundred times for each part of the document, counted over the
whole reading; both bounds keep a small document from standing for a huge one.
-/

namespace Fleet.Yaml

/-- Something read from a document, which may fail; the state counts how many aliases may still be followed. -/
abbrev Reader (α : Type) := StateT Nat Option α

namespace Reader

def fail {α : Type} : Reader α := fun _ => none

def ofOption {α : Type} (x : Option α) : Reader α := fun n => x.map ((·, n))

/-- The node itself, or the one it is an alias of. -/
def follow (d : Document) (n : Node) : Reader Node :=
  match n with
  | .alias a => fun left =>
    match left with
    | 0 => none
    | left + 1 => (d.target? a).map ((·, left))
  | _ => pure n

/-! ### scalars -/

/-- The text of a scalar of any kind. -/
def text (d : Document) (n : Node) : Reader String := do
  match ← follow d n with
  | .scalar _ _ s => pure s
  | _ => fail

def standardTag (name : String) : String := "tag:yaml.org,2002:" ++ name

/-- A natural number below a limit, written plainly, or literally with the tag of integers. -/
def naturalBelow (limit : Nat) (d : Document) (n : Node) : Reader Nat := do
  match ← follow d n with
  | .scalar tag style s =>
    if style = .plain || (style = .literal && tag = some (standardTag "int")) then
      ofOption (naturalBelow? limit s)
    else fail
  | _ => fail

/-- Whether a node stands for an absent value: an empty or null plain scalar, without a tag or with the tag of
null; any other scalar with that tag is refused. -/
def isAbsent : Node → Reader Bool
  | .scalar none .plain s => pure (s = "" || isNull s)
  | .scalar (some tag) .plain s =>
    if tag = standardTag "null" then (if isNull s then pure true else fail) else pure false
  | _ => pure false

def optional {α : Type} (d : Document) (reader : Node → Reader α) (n : Node) : Reader (Option α) := do
  let n ← follow d n
  if ← isAbsent n then pure none else some <$> reader n

/-! ### collections -/

def maxDepth : Nat := 128

/-- The entries of a mapping, and the depth that is left inside; an empty plain scalar is a mapping without
entries. -/
def entries (d : Document) (depth : Nat) (n : Node) : Reader (List (Node × Node) × Nat) := do
  match ← follow d n with
  | .mapping _ es =>
    match depth with
    | 0 => fail
    | depth + 1 => pure (es, depth)
  | .scalar _ .plain "" => pure ([], depth)
  | _ => fail

/-- The entries of a mapping from texts, each read at the depth that is left inside. -/
def textEntries {α : Type} (d : Document) (depth : Nat) (reader : Nat → Node → Reader α) (n : Node) :
    Reader (List (String × α)) := do
  let (es, depth) ← entries d depth n
  es.mapM fun (k, v) => do
    let key ← text d k
    let value ← reader depth v
    pure (key, value)

/-! ### records -/

/-- The fields of a record by name, each once, in the order of the text; other entries are not looked into. -/
def fields (d : Document) (depth : Nat) (names : List String) (n : Node) :
    Reader (List (String × Node) × Nat) := do
  let (es, depth) ← entries d depth n
  let named ← es.mapM fun (k, v) => do
    let key ← text d k
    pure (key, v)
  let known := named.filter fun (k, _) => names.contains k
  if (known.map (·.1)).Nodup then pure (known, depth) else fail

def required {α : Type} (fs : List (String × Node)) (name : String) (reader : Node → Reader α) : Reader α :=
  match fs.lookup name with
  | some n => reader n
  | none => fail

/-- A field that has a value of its own if it is not there. -/
def orElse {α : Type} (fs : List (String × Node)) (name : String) (default : α) (reader : Node → Reader α) :
    Reader α :=
  match fs.lookup name with
  | some n => reader n
  | none => pure default

/-! ### values -/

/-- The name of a tag of the user's: what follows its exclamation mark, without a second one.  A lone
exclamation mark is a name of its own. -/
def userTag? (tag : Option String) : Option String :=
  match tag.map String.toList with
  | some ['!'] => some "!"
  | some ('!' :: '!' :: c :: r) => some (String.ofList (c :: r))
  | some ('!' :: r) => some (String.ofList r)
  | _ => none

/-- What a scalar means.  The tags of the standard types force their type, any other standard tag and any
quotes make it a text, and without tag or with a tag of the user's it means what plain scalars mean. -/
def scalarValue (tag : Option String) (style : ScalarStyle) (s : String) : Option Value :=
  let plain := if style = .plain then plainValue? s else some (.text s)
  match tag with
  | none => plain
  | some tag =>
    if (userTag? (some tag)).isSome then plain
    else if tag = standardTag "bool" then (boolean? s).map .bool
    else if tag = standardTag "int" then (integerValue? s).join
    else if tag = standardTag "float" then (real? s).map fun x => .number (.real x)
    else if tag = standardTag "null" then (if isNull s then some .null else none)
    else some (.text s)

/-- What a node means, with a way to read the nodes inside it unless the depth is used up. -/
def valueWith (d : Document) (inner : Option (Node → Reader Value)) (n : Node) : Reader Value := do
  let n ← follow d n
  let content ←
    match n, inner with
    | .scalar tag style s, _ => ofOption (scalarValue tag style s)
    | .sequence _ items, some inner => .sequence <$> items.mapM inner
    | .mapping _ es, some inner => do
      let es ← es.mapM fun (k, v) => do
        let key ← inner k
        let value ← inner v
        pure (key, value)
      if Value.Distinct es then pure (.mapping es) else fail
    | _, _ => fail
  match userTag? n.tag? with
  | none => pure content
  | some name => pure (.tagged name content)

/-- What a node means, in collections nested at most so deep. -/
def value (d : Document) : Nat → Node → Reader Value
  | 0 => valueWith d none
  | depth + 1 => valueWith d (some (value d depth))

/-- The entries of a mapping of values, no two with the same key. -/
def valueEntries (d : Document) (depth : Nat) (n : Node) : Reader (List (Value × Value)) := do
  let (es, depth) ← entries d depth n
  es.mapM fun (k, v) => do
    let key ← value d depth k
    let value ← value d depth v
    pure (key, value)

def run {α : Type} (d : Document) (reader : Node → Reader α) : Option α :=
  (reader d.root (100 * d.size)).map (·.1)

end Reader

end Fleet.Yaml
