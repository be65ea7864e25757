import Fleet.Shell.Reader.Word

/-!
# Reading shell commands

Commands are read token by token, by recursive descent with fuel for the nesting.  One line of commands is read at a
time, so that what comes before a syntax error is still executed.

A line with here-documents is read again once their texts have been found: here-documents are numbered as they are
announced, and their texts are looked up by their numbers.
-/

namespace Fleet.Shell.Reader

mutual

/-- The commands that stand within a word. -/
def nested : Nat → Reading Command
  | 0 => fail .tooDeep
  | n + 1 => list n false true

/-- Commands up to the end of a line, or up to what ends a list of them.  There may be no command at all in some
places. -/
def list : Nat → Bool → Bool → Reading Command
  | 0, _, _ => fail .tooDeep
  | n + 1, isLine, mayBeEmpty => do
    match ← token (nested n) n ⟨!isLine, true, true⟩ with
    | .newline =>
      documents (nested n) n
      return .empty
    | .ending =>
      documents (nested n) n
      hold
      let _ ← found .ending
      return .empty
    | t =>
      hold
      if mayBeEmpty ∧ t.endsList then return .empty
      let first ← andOr n
      listRest n isLine first

/-- The commands that follow a first one. -/
def listRest : Nat → Bool → Command → Reading Command
  | 0, _, _ => fail .tooDeep
  | n + 1, isLine, first => do
    let t ← token (nested n) n .plain
    let first := if t = .operator "&" then .background first else first
    let finish : Reading Command := do
      documents (nested n) n
      hold
      let _ ← found .ending
      return first
    match t with
    | .ending => finish
    | .newline | .operator ";" | .operator "&" =>
      if t = .newline then hold
      match ← token (nested n) n ⟨!isLine, true, true⟩ with
      | .newline =>
        documents (nested n) n
        return first
      | .ending => finish
      | t =>
        hold
        if !isLine ∧ t.endsList then return first
        let second ← andOr n
        match ← listRest n isLine second with
        | rest => return .sequence first rest
    | _ =>
      if isLine then refuse none
      hold
      return first

/-- Pipelines joined by what depends on their success. -/
def andOr : Nat → Reading Command
  | 0 => fail .tooDeep
  | n + 1 => do
    let first ← pipeline n .plain
    andOrRest n first

/-- The pipelines that follow a first one and depend on its success. -/
def andOrRest : Nat → Command → Reading Command
  | 0, _ => fail .tooDeep
  | n + 1, first => do
    match ← token (nested n) n .plain with
    | .operator "&&" =>
      let second ← pipeline n .anyLine
      andOrRest n (.andThen first second)
    | .operator "||" =>
      let second ← pipeline n .anyLine
      andOrRest n (.orElse first second)
    | _ =>
      hold
      return first

def pipeline : Nat → Expected → Reading Command
  | 0, _ => fail .tooDeep
  | n + 1, wanted => do
    let isNegated := (← token (nested n) n wanted) == .keyword "!"
    if !isNegated then hold
    let first ← command n (if isNegated then .command else .plain)
    let stages ← stages n [first]
    let whole := match stages with
      | [stage] => stage
      | stages => .pipeline stages
    return if isNegated then .negated whole else whole

/-- The commands that read from those before. -/
def stages : Nat → List Command → Reading (List Command)
  | 0, _ => fail .tooDeep
  | n + 1, before => do
    if (← token (nested n) n .plain) = .operator "|" then
      let stage ← command n .anyLine
      stages n (before ++ [stage])
    else
      hold
      return before

def expect : Nat → Expected → Token → Reading Unit
  | 0, _, _ => fail .tooDeep
  | n + 1, wanted, t => do
    if (← token (nested n) n wanted) ≠ t then refuse (some t)

def command : Nat → Expected → Reading Command
  | 0, _ => fail .tooDeep
  | n + 1, wanted => do
    let line := (← get).line
    match ← token (nested n) n wanted with
    | .keyword "if" =>
      let whole ← branch n
      expect n .plain (.keyword "fi")
      redirected n line whole
    | .keyword "while" => loop n line false
    | .keyword "until" => loop n line true
    | .keyword "for" =>
      let whole ← forEach n line
      expect n .plain (.keyword "done")
      redirected n line whole
    | .keyword "case" =>
      if (← token (nested n) n .plain) ≠ .word then refuse (some .word)
      let subject := (← get).word
      expect n .anyLine (.keyword "in")
      let arms ← arms n []
      redirected n line (.select line subject arms)
    | .operator "(" =>
      let body ← list n false false
      expect n .plain (.operator ")")
      match ← redirections n [] with
      | changes => return .subshell line body changes
    | .keyword "\x7b" =>
      let body ← list n false false
      expect n .plain (.keyword "\x7d")
      redirected n line body
    | .word | .redirection =>
      hold
      simple n
    | _ => refuse none

def loop : Nat → Nat → Bool → Reading Command
  | 0, _, _ => fail .tooDeep
  | n + 1, line, isUntil => do
    let condition ← list n false false
    expect n .plain (.keyword "do")
    let body ← list n false false
    expect n .plain (.keyword "done")
    redirected n line (.loop isUntil condition body)

/-- A condition, what is done if it holds, and what is done if not. -/
def branch : Nat → Reading Command
  | 0 => fail .tooDeep
  | n + 1 => do
    let condition ← list n false false
    expect n .plain (.keyword "then")
    let positive ← list n false false
    match ← token (nested n) n .plain with
    | .keyword "elif" =>
      let negative ← branch n
      return .branch condition positive (some negative)
    | .keyword "else" =>
      let negative ← list n false false
      return .branch condition positive (some negative)
    | _ =>
      hold
      return .branch condition positive none

/-- A loop over words, up to its end. -/
def forEach : Nat → Nat → Reading Command
  | 0, _ => fail .tooDeep
  | n + 1, line => do
    if (← token (nested n) n .plain) ≠ .word then fail .badLoopVariable
    let name := ((← get).word.bare?).getD ""
    if !isName name.toList then fail .badLoopVariable
    let items ← match ← token (nested n) n .anyLine with
      | .keyword "in" => do
        let items ← words n []
        if (← get).token ≠ .newline ∧ (← get).token ≠ .operator ";" then refuse none
        pure (some items)
      | .operator ";" => pure none
      | _ => do
        hold
        pure none
    expect n .anyLine (.keyword "do")
    let body ← list n false false
    return .forEach line name items body

def words : Nat → List Word → Reading (List Word)
  | 0, _ => fail .tooDeep
  | n + 1, before => do
    if (← token (nested n) n .plain) = .word then words n ((← get).word :: before) else return before.reverse

def arms : Nat → List (List Word × Command) → Reading (List (List Word × Command))
  | 0, _ => fail .tooDeep
  | n + 1, before => do
    let t ← token (nested n) n ⟨true, true, false⟩
    if t = .keyword "esac" then return before.reverse
    if t = .operator "(" then let _ ← token (nested n) n .plain
    let patterns ← patterns n []
    if (← get).token ≠ .operator ")" then refuse (some (.operator ")"))
    let body ← list n false true
    let before := (patterns, body) :: before
    match ← token (nested n) n ⟨true, true, false⟩ with
    | .keyword "esac" => return before.reverse
    | .operator ";;" => arms n before
    | _ => refuse (some (.operator ";;"))

/-- The patterns of an alternative, the first of which has been read. -/
def patterns : Nat → List Word → Reading (List Word)
  | 0, _ => fail .tooDeep
  | n + 1, before => do
    let before := (← get).word :: before
    if (← token (nested n) n .plain) = .operator "|" then
      let _ ← token (nested n) n .plain
      patterns n before
    else return before.reverse

def redirections : Nat → List Redirection → Reading (List Redirection)
  | 0, _ => fail .tooDeep
  | n + 1, before => do
    if (← token (nested n) n .command) = .redirection then
      let r ← target (nested n) n
      redirections n (r :: before)
    else
      hold
      return before.reverse

def redirected : Nat → Nat → Command → Reading Command
  | 0, _, _ => fail .tooDeep
  | n + 1, line, whole => do
    match ← redirections n [] with
    | [] => return whole
    | changes => return .redirected line whole changes

def simple : Nat → Reading Command
  | 0 => fail .tooDeep
  | n + 1 => do
    simpleRest n (← get).line [] [] []

/-- The rest of a simple command, with what has been read of it, the last first. -/
def simpleRest : Nat → Nat → List (String × Word) → List Word → List Redirection → Reading Command
  | 0, _, _, _, _ => fail .tooDeep
  | n + 1, line, assignments, words, changes => do
    let t ← token (nested n) n ⟨false, false, words.isEmpty⟩
    let ended : Reading Command := do
      hold
      return .simple line assignments.reverse words.reverse changes.reverse
    match t with
    | .word =>
      let w := (← get).word
      match assignment? w with
      | some a =>
        if words = [] then simpleRest n line (a :: assignments) words changes
        else simpleRest n line assignments (w :: words) changes
      | none => simpleRest n line assignments (w :: words) changes
    | .redirection =>
      let r ← target (nested n) n
      simpleRest n line assignments words (r :: changes)
    | .operator "(" =>
      match assignments, words, changes with
      | [], [w], [] => do
        expect n .plain (.operator ")")
        let name := (w.bare?).getD ""
        if !isName name.toList ∨ name ∈ specialBuiltins then fail .badFunctionName
        let body ← command n .anyLine
        return .define name body
      | _, _, _ => ended
    | _ => ended

end

/-- More fuel than the reading of a text needs. -/
def fuel (s : List Char) : Nat := 100000 + 64 * s.length

/-- A reader at the beginning of a text. -/
def start (isExtended : Bool) (aliases : List (String × String)) (p : Position) : Scanner :=
  { rest := p.rest, line := p.line, token := .newline, isHeld := false, word := []
    opening := ⟨0, .read, false⟩, announced := [], found := [], known := [], count := 0, depth := 0
    greatestDepth := 0, aliases, expanding := [], isExtended }

/-- The next line of commands, or none at the end of the text. -/
def line (n : Nat) : Reading (Option Command) := do
  let c ← list n true false
  let x ← get
  match c with
  | .empty => return if x.isHeld ∧ x.token = .ending then none else some .empty
  | c => return some c

/-- A line of commands, read again so many times with the texts of here-documents that were found. -/
def settle (n : Nat) :
    Nat → Scanner → Option Command × Scanner → Except (Nat × SyntaxFault) (Option Command × Scanner)
  | 0, _, result => .ok result
  | times + 1, x, result => do settle n times x (← (line n).run { x with known := result.2.found })

/-- The next line of commands, or none at the end of the text, and the position after it.  A here-document within
the text of another one is known one reading earlier. -/
def nextLine (isExtended : Bool) (aliases : List (String × String)) (p : Position) :
    Except (Nat × SyntaxFault) (Option Command × Position) := do
  let n := fuel p.rest
  let x := start isExtended aliases p
  let first ← (line n).run x
  let (c, after) ← settle n first.2.greatestDepth x first
  return (c, ⟨after.rest, after.line⟩)

end Fleet.Shell.Reader
