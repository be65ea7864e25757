import Fleet.Yaml.Node
import Fleet.Yaml.Token.Lexer

/-!
# From tokens to a document

A text holds exactly one document.  The grammar is read by recursive descent; where the notation allows a
node to be missing, an empty plain scalar stands for it.  Anchors are numbered by how many names have been
given before, so a name given again shares its number with the next new name; of the nodes with one number the
one that begins last is meant, also by aliases before it.
-/

namespace Fleet.Yaml

/-- What is known while a document is read. -/
structure Reading where
  tokens : List Token
  /-- what the tag handles stand for -/
  handles : List (String × String)
  /-- the number each anchor name has last been given -/
  names : List (String × Nat)
  /-- how many anchored nodes have begun -/
  begun : Nat
  /-- for each number, which of the anchored nodes it means -/
  owners : List (Nat × Nat)
  /-- the anchored nodes that have ended, by the order of their beginnings -/
  ended : List (Nat × Node)
  /-- how many parts have been read -/
  size : Nat

namespace Reading

def peek (r : Reading) : Token := r.tokens.headD .streamEnd

def skip (r : Reading) : Reading := { r with tokens := r.tokens.drop 1 }

def count (r : Reading) (n : Nat) : Reading := { r with size := r.size + n }

/-- Give an anchored node that begins here its number. -/
def begin (r : Reading) (anchor : Option String) : Reading :=
  match anchor with
  | none => r
  | some name =>
    let number := r.names.length
    { r with
      names := (name, number) :: r.names.filter (·.1 != name)
      begun := r.begun + 1
      owners := (number, r.begun) :: r.owners }

/-- Keep a node that has ended, if it is anchored; its order is the one in which it began. -/
def keep (r : Reading) (anchor : Option String) (order : Nat) (node : Node) : Reading :=
  if anchor.isSome then { r with ended := (order, node) :: r.ended } else r

/-- The whole tag, if its handle is known. -/
def expand (r : Reading) (t : TagText) : Option String :=
  if t.handle = "" then some t.suffix else (r.handles.lookup t.handle).map (· ++ t.suffix)

/-- The properties before a node: an anchor and a tag, in either order. -/
def properties (r : Reading) : Option (Option String × Option String × Reading) :=
  match r.tokens with
  | .anchor a :: .tag t :: rest => (r.expand t).map fun s => (some a, some s, { r with tokens := rest })
  | .tag t :: .anchor a :: rest => (r.expand t).map fun s => (some a, some s, { r with tokens := rest })
  | .anchor a :: rest => some (some a, none, { r with tokens := rest })
  | .tag t :: rest => (r.expand t).map fun s => (none, some s, { r with tokens := rest })
  | _ => some (none, none, r)

def missing (r : Reading) : Node × Reading := (.blank, r.count 1)

/-! ### the grammar -/

/-- Whether a token ends a block collection's part, so that a node before it is missing. -/
def endsPart : Token → Bool
  | .key | .value | .blockEnd => true
  | _ => false

/-- Whether a token ends a part of a collection in brackets. -/
def endsFlowPart (close : Token) (t : Token) : Bool :=
  t = .flowEntry || t = close

mutual

/-- A node.  Where a block collection may stand, it may; behind a key's mark also a sequence that is not
indented more than the key. -/
def node (isBlock isUnindented : Bool) : Nat → Reading → Option (Node × Reading)
  | 0, _ => none
  | fuel + 1, r =>
    match r.tokens with
    | .alias name :: rest =>
      (r.names.lookup name).map fun n => (.alias n, { r with tokens := rest }.count 1)
    | _ => do
      let (anchor, tag, r) ← r.properties
      let order := r.begun
      let finish := fun (x : Node × Reading) => (x.1, x.2.keep anchor order x.1)
      match r.peek with
      | .blockEntry =>
        if isUnindented then
          let (items, r) ← unindentedItems fuel ((r.begin anchor).count 2)
          some (finish (.sequence tag items, r))
        else if anchor.isSome || tag.isSome then
          some (finish (.scalar tag .plain "", (r.begin anchor).count 1))
        else none
      | .scalar style text =>
        some (finish (.scalar tag style text, (r.skip.begin anchor).count 1))
      | .flowSequenceStart =>
        let (items, r) ← flowItems true fuel ((r.skip.begin anchor).count 2)
        some (finish (.sequence tag items, r))
      | .flowMappingStart =>
        let (entries, r) ← flowEntries true fuel ((r.skip.begin anchor).count 2)
        some (finish (.mapping tag entries, r))
      | .blockSequenceStart =>
        if isBlock then
          let (items, r) ← blockItems fuel ((r.skip.begin anchor).count 2)
          some (finish (.sequence tag items, r))
        else if anchor.isSome || tag.isSome then
          some (finish (.scalar tag .plain "", (r.begin anchor).count 1))
        else none
      | .blockMappingStart =>
        if isBlock then
          let (entries, r) ← blockEntries fuel ((r.skip.begin anchor).count 2)
          some (finish (.mapping tag entries, r))
        else if anchor.isSome || tag.isSome then
          some (finish (.scalar tag .plain "", (r.begin anchor).count 1))
        else none
      | _ =>
        if anchor.isSome || tag.isSome then
          some (finish (.scalar tag .plain "", (r.begin anchor).count 1))
        else none

/-- The items of an indented sequence, with its end. -/
def blockItems : Nat → Reading → Option (List Node × Reading)
  | 0, _ => none
  | fuel + 1, r =>
    match r.peek with
    | .blockEntry => do
      let r := r.skip
      let (item, r) ←
        if r.peek = .blockEntry || r.peek = .blockEnd then some r.missing
        else node true false fuel r
      let (items, r) ← blockItems fuel r
      some (item :: items, r)
    | .blockEnd => some ([], r.skip)
    | _ => none

/-- The items of a sequence that is not indented more than the key before it. -/
def unindentedItems : Nat → Reading → Option (List Node × Reading)
  | 0, _ => none
  | fuel + 1, r =>
    match r.peek with
    | .blockEntry => do
      let r := r.skip
      let (item, r) ←
        if r.peek = .blockEntry || endsPart r.peek then some r.missing
        else node true false fuel r
      let (items, r) ← unindentedItems fuel r
      some (item :: items, r)
    | _ => some ([], r)

/-- The entries of an indented mapping, with its end. -/
def blockEntries : Nat → Reading → Option (List (Node × Node) × Reading)
  | 0, _ => none
  | fuel + 1, r =>
    match r.peek with
    | .key => do
      let r := r.skip
      let (key, r) ← if endsPart r.peek then some r.missing else node true true fuel r
      let (value, r) ←
        if r.peek = .value then
          let r := r.skip
          if endsPart r.peek then some r.missing else node true true fuel r
        else some r.missing
      let (entries, r) ← blockEntries fuel r
      some ((key, value) :: entries, r)
    | .blockEnd => some ([], r.skip)
    | _ => none

/-- The items of a sequence in brackets, with its closing bracket. -/
def flowItems (isFirst : Bool) : Nat → Reading → Option (List Node × Reading)
  | 0, _ => none
  | fuel + 1, r =>
    if r.peek = .flowSequenceEnd then some ([], r.skip)
    else do
      let r ← if isFirst then some r else if r.peek = .flowEntry then some r.skip else none
      if r.peek = .flowSequenceEnd then some ([], r.skip)
      else
        let (item, r) ←
          if r.peek = .key then singleEntry fuel (r.skip.count 2) else node false false fuel r
        let (items, r) ← flowItems false fuel r
        some (item :: items, r)

/-- A mapping of one entry without brackets of its own, behind its key's mark.  A token that ends the key at
once is read as part of it. -/
def singleEntry : Nat → Reading → Option (Node × Reading)
  | 0, _ => none
  | fuel + 1, r => do
    let (key, r) ←
      if r.peek = .value || endsFlowPart .flowSequenceEnd r.peek then some r.skip.missing
      else node false false fuel r
    let (value, r) ←
      if r.peek = .value then
        let r := r.skip
        if endsFlowPart .flowSequenceEnd r.peek then some r.missing else node false false fuel r
      else some r.missing
    some (.mapping none [(key, value)], r)

/-- The entries of a mapping in brackets, with its closing bracket. -/
def flowEntries (isFirst : Bool) : Nat → Reading → Option (List (Node × Node) × Reading)
  | 0, _ => none
  | fuel + 1, r =>
    if r.peek = .flowMappingEnd then some ([], r.skip)
    else do
      let r ← if isFirst then some r else if r.peek = .flowEntry then some r.skip else none
      if r.peek = .flowMappingEnd then some ([], r.skip)
      else
        let isMarked := r.peek = .key
        let r := if isMarked then r.skip else r
        let (key, r) ←
          if isMarked && (r.peek = .value || endsFlowPart .flowMappingEnd r.peek) then some r.missing
          else node false false fuel r
        let (value, r) ←
          if isMarked && r.peek = .value then
            let r := r.skip
            if endsFlowPart .flowMappingEnd r.peek then some r.missing else node false false fuel r
          else some r.missing
        let (entries, r) ← flowEntries false fuel r
        some ((key, value) :: entries, r)

end

/-! ### the document -/

/-- What the directives before a document say about tag handles, the later ones first; a handle may be given
once, and so may the version, which is 1.1 or 1.2. -/
def directives : List Token → (hasVersion : Bool) → List (String × String) →
    Option (List (String × String) × List Token)
  | .versionDirective major minor :: rest, hasVersion, handles =>
    if hasVersion || major != 1 || (minor != 1 && minor != 2) then none
    else directives rest true handles
  | .tagDirective handle expansion :: rest, hasVersion, handles =>
    if (handles.lookup handle).isSome then none
    else directives rest hasVersion ((handle, expansion) :: handles)
  | rest, _, handles => some (handles, rest)

/-- What the tag handles stand for if no directive says otherwise. -/
def defaultHandles : List (String × String) :=
  [("!", "!"), ("!!", "tag:yaml.org,2002:")]

def isDirective : Token → Bool
  | .versionDirective .. | .tagDirective .. => true
  | _ => false

/-- The tree of the only document among the tokens, and what is known at its end. -/
def document (tokens : List Token) : Option (Node × Reading) := do
  let isMarked := isDirective (tokens.headD .streamEnd) || tokens.head? = some .documentStart
  if tokens.head? = some .streamEnd then none
  else
    let (handles, rest) ← directives tokens false []
    let rest ←
      if isMarked then (if rest.head? = some .documentStart then some (rest.drop 1) else none)
      else some rest
    let r : Reading := ⟨rest, handles ++ defaultHandles, [], 0, [], [], 0⟩
    let isEmpty := isMarked &&
      (isDirective r.peek || r.peek = .documentStart || r.peek = .documentEnd || r.peek = .streamEnd)
    let (root, r) ← if isEmpty then some r.missing else node true false (4 * tokens.length + 8) r
    if (r.tokens.dropWhile (· = .documentEnd)).head? = some .streamEnd then some (root, r) else none

end Reading

def Document.parse? (text : String) : Option Document := do
  let tokens ← tokens? text
  let (root, r) ← Reading.document tokens
  let anchored := r.owners.filterMap fun (number, order) => (r.ended.lookup order).map ((number, ·))
  some ⟨root, anchored, r.size⟩

end Fleet.Yaml
