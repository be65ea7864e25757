import Fleet.Shell.Reader.Document

/-!
# Reading words

A word is read part by part, as its setting says, and a token with it.  Commands may stand within words, so all of this
takes a parameter: what reads the commands up to the end of their list.  Fuel is for the nesting.

The texts of here-documents are read with the newline behind the line that announces them, so here too.
-/

namespace Fleet.Shell

/-! ### settings -/

/-- Where a part of a word stands. -/
inductive Place where
  | word
  /-- the text of an expansion in braces -/
  | braces
  /-- between double quotes -/
  | quotes
  /-- the text of an expansion in braces that is quoted -/
  | quotedBraces
  /-- the text of a here-document -/
  | document
  /-- an arithmetic expression, within so many parentheses -/
  | sum (depth : Nat)
  deriving DecidableEq

/-- Where a part of a word stands, and what that is in. -/
structure Setting where
  place : Place
  /-- a closing brace may be meant for an expansion -/
  isInBraces : Bool
  /-- the here-document that this is in -/
  mark : Option Mark

namespace Setting

def isQuoted (x : Setting) : Bool :=
  match x.place with
  | .word | .braces => false
  | _ => true

def isMeant (x : Setting) (c : Char) : Bool :=
  c ∈ ['\\', '$', '\x60', '\n'] ||
    match x.place with
    | .word => c ∈ ['"', '\'', ' ', '\t', ';', '&', '|', '<', '>', '(', ')']
    | .braces => c ∈ ['"', '\'', '\x7d']
    | .quotes => c == '"'
    | .quotedBraces => c ∈ ['"', '\x7d']
    | .document => false
    | .sum _ => c ∈ ['(', ')']

/-- Whether a backslash is kept before a character here. -/
def keepsBackslash (x : Setting) (c : Char) : Bool :=
  x.isQuoted && !(c ∈ ['\\', '\x60', '$']) && (c != '"' || (x.mark.isSome && !x.isInBraces)) &&
    (c != '\x7d' || !x.isInBraces)

/-- What the end of the text means here. -/
def fault? (x : Setting) : Option SyntaxFault :=
  match x.place with
  | .sum _ => some .missingParentheses
  | .word | .document => none
  | .braces => some .missingBrace
  | .quotes | .quotedBraces =>
    if x.mark.isNone then some .unterminatedQuote else if x.isInBraces then some .missingBrace else none

/-- The text of an expansion in braces here. -/
def inner (x : Setting) : Setting :=
  { x with place := if x.isQuoted then .quotedBraces else .braces, isInBraces := true }

def quoted (x : Setting) : Setting := { x with place := .quotes, isInBraces := x.isInBraces }

end Setting

namespace Reader

/-! ### what words are made of -/

/-- The name and the value of a word that assigns a variable. -/
def assignment? (w : Word) : Option (String × Word) :=
  match w with
  | .text false chars :: rest =>
    match chars.span (· != '=') with
    | (name, _ :: value) =>
      if isName name then some (String.ofList name, if value = [] then rest else .text false value :: rest) else none
    | (_, []) => none
  | _ => none

/-- What is between double quotes.  All arguments alone make no field if there are none. -/
def unmarked (w : Word) : Word :=
  match w with
  | [.text true [], .parameter true .each .plain] => [.parameter true .each .plain]
  | w => w

/-- The parameter that an expansion in braces begins with, and whether its length is asked for.  A name that is
none stands for something that no shell knows. -/
def bracedParameter : Reading (Parameter × Bool) := do
  let named := fun (p : Parameter) (after : Position) (isLength : Bool) => do
    moveTo after
    return (p, isLength)
  let plain? := fun (x : Scanner) =>
    match x.rest with
    | [] => none
    | c :: _ =>
      if isNameStart c then
        let (name, after) := Position.span isNameChar x.rest x.line
        some (Parameter.named (String.ofList name), after)
      else if c.isDigit then
        let (digits, after) := Position.span Char.isDigit x.rest x.line
        some (Parameter.argument ((String.ofList digits).toNat?.getD 0), after)
      else none
  join
  let x ← get
  match plain? x with
  | some (p, after) => named p after false
  | none =>
    match ← peek? with
    | none => return (.named "", false)
    | some '\x7d' => return (.named "", false)
    | some '#' =>
      let _ ← next?
      join
      let y ← get
      match plain? y with
      | some (p, after) => named p after true
      | none =>
        match y.rest with
        | c :: '\x7d' :: _ =>
          if c = '\x7d' then return (.count, false)
          else
            match special? c with
            | some p =>
              let _ ← next?
              return (p, true)
            | none =>
              let _ ← next?
              return (.named "", false)
        | _ => return (.count, false)
    | some c =>
      let _ ← next?
      return ((special? c).getD (.named ""), false)

/-- The modifier that follows a parameter in braces, as far as its text is not read, and whether that is a
pattern.  None stands for the closing brace. -/
def modifier : Reading (Option ((Word → Modifier) × Bool)) := do
  let known := fun (f : Word → Modifier) (isPattern : Bool) => some (f, isPattern)
  let cut := fun (c : Char) => do
    let isLongest ← accept c
    return known (.cut (c == '%') isLongest) true
  match ← next? with
  | some '\x7d' => return none
  | some '#' => cut '#'
  | some '%' => cut '%'
  | some ':' =>
    match ← next? with
    | some '\x7d' => return known (fun _ => .plain) false
    | some c =>
      match fallback? c with
      | some kind => return known (.fallback kind true) false
      | none => return known (fun _ => .unknown) false
    | none => return known (fun _ => .unknown) false
  | some c =>
    match fallback? c with
    | some kind => return known (.fallback kind false) false
    | none => return known (fun _ => .unknown) false
  | none => return known (fun _ => .unknown) false

/-! ### words -/

variable (commands : Reading Command)

/-- The commands of a text of its own.  What follows them there is of no account. -/
def separate (text : List Char) : Reading Command := do
  let outer ← get
  set { outer with rest := text, line := 1, isHeld := false, announced := [], expanding := [] }
  let command ← commands
  modify fun x => { x with
    rest := outer.rest, line := outer.line, isHeld := false, announced := outer.announced
    expanding := outer.expanding }
  return command

mutual

/-- The parts of a word up to its end, after those before, the last one first. -/
def parts : Nat → Setting → List Part → Reading Word
  | 0, _, _ => fail .tooDeep
  | n + 1, ctx, before => do
    join
    let x ← get
    let ended : Reading Word :=
      match ctx.fault? with
      | some fault => fail fault
      | none => return before.reverse
    match x.rest with
    | [] => ended
    | '\\' :: [] =>
      set { x with rest := [] }
      parts n ctx (add true ['\\'] before)
    | '\\' :: c :: rest =>
      set { x with rest }
      parts n ctx (add true (if ctx.keepsBackslash c then ['\\', c] else [c]) before)
    | '\n' :: rest =>
      if ctx.place = .word then return before.reverse
      set { x with rest, line := x.line + 1 }
      let before := add ctx.isQuoted ['\n'] before
      match ctx.mark with
      | some mark =>
        if ← isAtMark mark then
          match ctx.fault? with
          | some fault => fail fault
          | none => return before.reverse
        else parts n ctx before
      | none => parts n ctx before
    | '$' :: rest =>
      set { x with rest }
      match ← dollar n ctx with
      | some part => parts n ctx (part :: before)
      | none => parts n ctx (add ctx.isQuoted ['$'] before)
    | '\x60' :: rest =>
      match backquoted? ctx.isQuoted rest x.line with
      | none => fail .unterminatedBackquote
      | some (inner, after) =>
        moveTo after
        let command ← separate commands inner
        parts n ctx (.output ctx.isQuoted command :: before)
    | c :: rest =>
      if !ctx.isMeant c then
        let (run, after) := x.rest.span (!ctx.isMeant ·)
        set { x with rest := after }
        parts n ctx (add ctx.isQuoted run before)
      else
        match ctx.place, c with
        | .word, '"' | .braces, '"' | .quotedBraces, '"' =>
          set { x with rest }
          let inner ← parts n ctx.quoted [.text true []]
          parts n ctx ((unmarked inner).reverse ++ before)
        | .quotes, '"' =>
          set { x with rest }
          return before.reverse
        | .word, '\'' | .braces, '\'' =>
          match singleQuoted? rest with
          | some (inner, rest) =>
            set { x with rest, line := x.line + inner.count '\n' }
            parts n ctx (add true inner before)
          | none =>
            set { x with rest := [], line := x.line + rest.count '\n' }
            fail .unterminatedQuote
        | .braces, '\x7d' | .quotedBraces, '\x7d' =>
          set { x with rest }
          return before.reverse
        | .sum 0, ')' =>
          set { x with rest }
          if ← accept ')' then return before.reverse else parts n ctx (add true [')'] before)
        | .sum (depth + 1), ')' =>
          set { x with rest }
          parts n { ctx with place := .sum depth } (add true [')'] before)
        | .sum depth, '(' =>
          set { x with rest }
          parts n { ctx with place := .sum (depth + 1) } (add true ['('] before)
        | _, _ => return before.reverse

def dollar : Nat → Setting → Reading (Option Part)
  | 0, _ => fail .tooDeep
  | n + 1, ctx => do
    join
    let x ← get
    match x.rest with
    | '(' :: rest =>
      set { x with rest }
      if ← accept '(' then
        let body ← parts n { place := .sum 0, isInBraces := false, mark := ctx.mark } []
        return some (.arithmetic ctx.isQuoted body)
      else return some (.output ctx.isQuoted (← parenthesised n))
    | '\x7b' :: rest =>
      set { x with rest }
      return some (← braced n ctx)
    | c :: rest =>
      if isNameStart c then
        let (name, after) := Position.span isNameChar x.rest x.line
        moveTo after
        return some (.parameter ctx.isQuoted (.named (String.ofList name)) .plain)
      else
        match special? c with
        | some p =>
          set { x with rest }
          return some (.parameter ctx.isQuoted p .plain)
        | none => return none
    | [] => return none

def braced : Nat → Setting → Reading Part
  | 0, _ => fail .tooDeep
  | n + 1, ctx => do
    let (p, isLength) ← bracedParameter
    if isLength then
      if ← accept '\x7d' then return .parameter ctx.isQuoted p .length
      else
        let _ ← parts n ctx.inner []
        return .parameter ctx.isQuoted p .unknown
    else if p = .named "" then
      let _ ← parts n ctx.inner []
      return .parameter ctx.isQuoted p .unknown
    else
      match ← modifier with
      | none => return .parameter ctx.isQuoted p .plain
      | some (kind, isPattern) =>
        let word ← parts n (if isPattern then { ctx.inner with place := .braces } else ctx.inner) []
        return .parameter ctx.isQuoted p (kind word)

/-- The commands up to a closing parenthesis. -/
def parenthesised : Nat → Reading Command
  | 0 => fail .tooDeep
  | n + 1 => do
    let outer ← get
    set { outer with isHeld := false, announced := [] }
    let command ← commands
    if (← token n .plain) ≠ .operator ")" then refuse (some (.operator ")"))
    let inner ← get
    set { inner with rest := [] }
    documents n
    modify fun x => { x with rest := inner.rest, line := inner.line, announced := outer.announced }
    return command

/-- The texts of the here-documents that have been announced. -/
def documents : Nat → Reading Unit
  | 0 => fail .tooDeep
  | n + 1 => do
    let x ← get
    match x.announced with
    | [] => pure ()
    | a :: more =>
      set { x with announced := [], depth := x.depth + 1, greatestDepth := max x.greatestDepth (x.depth + 1) }
      let body ← if a.isQuoted then pure [Part.text true (← plainLines n a.mark [])]
        else if ← isAtMark a.mark then pure []
        else parts n ⟨.document, false, some a.mark⟩ []
      modify fun y => { y with found := (a.number, body) :: y.found, announced := more, depth := x.depth }
      documents n

def token : Nat → Expected → Reading Token
  | 0, _ => fail .tooDeep
  | n + 1, wanted => do
    let x ← get
    let mut goesOn := false
    if x.isHeld then set { x with isHeld := false }
    else goesOn ← fresh n
    let t := (← get).token
    if wanted.skipsNewlines ∧ t = .newline then
      documents n
      token n wanted
    else if t ≠ .word then return t
    else
      match ((← get).word).bare? with
      | none => return t
      | some name =>
        if wanted.keywords ∧ name ∈ Token.keywords then found (.keyword name)
        else if wanted.aliases ∨ goesOn then
          let x ← get
          match x.aliases.lookup name with
          | some value =>
            if x.expanding.any (·.name == name) then return t
            else
              let behind := x.rest.length
              set { x with
                rest := value.toList ++ ' ' :: x.rest
                expanding := ⟨name, behind, value.toList.getLast?.any (· ∈ [' ', '\t'])⟩ :: x.expanding }
              token n wanted
          | none => return t
        else return t

/-- A token that has not been read before; the answer says whether it follows an alias that lets the next word be
an alias too. -/
def fresh : Nat → Reading Bool
  | 0 => fail .tooDeep
  | n + 1 => do
    let x ← get
    moveTo (Position.afterBlanks false x.rest x.line)
    let goesOn ← closeAliases
    if (← get).isExtended ∧ (← get).rest.head? = some '&' ∧ (← get).rest[1]? = some '>' then
      modify fun x => { x with rest := x.rest.drop 2 }
      let mode ← if ← accept '>' then pure Mode.appendBoth else pure Mode.writeBoth
      modify fun x => { x with opening := ⟨1, mode, false⟩, token := .redirection }
    else
      match ← operator with
      | some t => let _ ← found t
      | none => word n ⟨.word, false, none⟩
    return goesOn

/-- A word, or the beginning of a redirection. -/
def word : Nat → Setting → Reading Unit
  | 0, _ => fail .tooDeep
  | n + 1, ctx => do
    let w ← parts n ctx []
    let x ← get
    let isOpening := x.rest.head?.any (· ∈ ['<', '>']) &&
      match w with
      | [] => true
      | [.text false [c]] => c.isDigit
      | _ => false
    if isOpening then
      let opening ← redirection ((w.bare?).bind String.toNat?)
      modify fun x => { x with opening, token := .redirection }
    else set { x with word := w, token := .word }

end

def target : Nat → Reading Redirection
  | 0 => fail .tooDeep
  | n + 1 => do
    let opening := (← get).opening
    if opening.mode = .document then
      let x ← get
      moveTo (Position.afterBlanks false x.rest x.line)
      match ← operator with
      | some t =>
        let _ ← found t
        refuse none
      | none =>
        let w ← markWord n []
        let x ← get
        if w = [] then
          let _ ← found .redirection
          refuse none
        let a : Announcement := ⟨x.count, ⟨(w.literal?).getD [], opening.skipsTabs⟩, isQuoted w⟩
        set { x with count := x.count + 1, announced := x.announced ++ [a], token := .word }
        return ⟨opening.descriptor, .document, (x.known.lookup a.number).getD []⟩
    else
      if (← token commands n .plain) ≠ .word then refuse none
      return ⟨opening.descriptor, opening.mode, (← get).word⟩

end Reader

end Fleet.Shell
