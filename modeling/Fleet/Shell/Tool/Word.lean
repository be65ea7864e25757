import Fleet.Shell.Arithmetic
import Fleet.Shell.Builtin.Condition
import Fleet.Shell.Format
import Fleet.Shell.Regex
import Fleet.Shell.Tool

/-!
# Programs for words

Programs that put out their arguments, by a format if there is one, take paths apart, and count and compute.
-/

namespace Fleet.Shell.Tool

open Text (Bytes)

/-! ### texts -/

/-- The arguments with blanks between them and a newline, if none of the flags forbids it. -/
def echo : Program := fun _ args => do
  let isFlag := fun (word : String) =>
    1 < word.length && word.startsWith "-" && (word.toList.drop 1).all (· ∈ ['n', 'e', 'E'])
  let flags := args.takeWhile isFlag
  let letters := flags.flatMap fun word => word.toList.drop 1
  let text := String.intercalate " " (args.drop flags.length)
  let escapes := (letters.reverse.find? (· ∈ ['e', 'E'])) == some 'e'
  let (bytes, goesOn) := if escapes then Escape.bytes .words text else (Octets.bytes text, true)
  emit (if goesOn && !letters.contains 'n' then bytes ++ [10] else bytes)

def printf : Program := fun name args => do
  let args := if args.head? = some "--" then args.tail else args
  match args with
  | [] => misuse name "missing operand" 1
  | format :: args =>
    let (printed, fault?) := Format.print format args
    for piece in printed do
      match piece with
      | .bytes bytes => emit bytes
      | .doubt argument doubt => fail name (quoted argument ++ ": " ++ doubtText doubt)
    if let some text := fault? then fail name text
where
  /-- The words for a doubt. -/
  doubtText : Format.Doubt → String
    | .noNumber => "expected a numeric value"
    | .onlyPartly => "value not completely converted"
    | .outOfRange => "Numerical result out of range"

/-- The last name of a path, without an ending that it may have. -/
def basename : Program := fun name args => do
  let o : Options := ⟨"as:z", [("multiple", 'a'), ("suffix", 's')], true, 1⟩
  let x ← o.of name args
  let last := fun (path : String) =>
    if path = "" then "" else
      (((path.toList.splitOn '/').filter (· ≠ [])).getLast?.map String.ofList).getD "/"
  let line := fun (ending path : String) =>
    let found := last path
    say ((if found.endsWith ending ∧ found ≠ ending then (found.dropEnd ending.length).toString else found) ++ "\n")
  match x.operands with
  | [] => misuse name "missing operand" 1
  | path :: rest =>
    if x.hasAny ['a', 's'] then x.operands.forM (line ((x.value? 's').getD ""))
    else
      match rest with
      | _ :: extra :: _ => misuse name ("extra operand " ++ quoted extra) 1
      | rest => line (rest.headD "") path

def dirname : Program := fun name args => do
  let x ← (options "z" []).of name args
  if x.operands.isEmpty then misuse name "missing operand" 1
  for path in x.operands do
    let isSlash := fun (c : Char) => c == '/'
    let rest := ((path.toList.reverse.dropWhile isSlash).dropWhile (!isSlash ·)).dropWhile isSlash
    let above := String.ofList rest.reverse
    say ((if above ≠ "" then above else if path.startsWith "/" then "/" else ".") ++ "\n")

/-! ### numbers -/

/-- A decimal that a word is: its sign, its digits as a whole number, and how many of them stand behind the point. -/
def decimal? (word : String) : Option (Int × Nat) :=
  let (isNegative, s) := match word.toList with
    | '-' :: rest => (true, rest)
    | '+' :: rest => (false, rest)
    | s => (false, s)
  let (whole, rest) := s.span Char.isDigit
  let fraction? := match rest with
    | [] => some []
    | '.' :: digits => if digits.all Char.isDigit then some digits else none
    | _ => none
  fraction?.bind fun fraction =>
    if whole = [] ∧ fraction = [] then none
    else
      let n := ((String.ofList (whole ++ fraction)).toNat?).getD 0
      some (if isNegative then -(n : Int) else n, fraction.length)

/-- A decimal as a text with so many digits behind the point. -/
def decimalText (places : Nat) (n : Int) : String :=
  let digits := toString n.natAbs
  let digits := String.ofList (List.replicate (places + 1 - digits.length) '0') ++ digits
  let whole := (digits.take (digits.length - places)).toString
  let fraction := (digits.drop (digits.length - places)).toString
  (if n < 0 then "-" else "") ++ whole ++ (if places = 0 then "" else "." ++ fraction)

/-- So many texts from a row are said, unless what is said goes nowhere any more. -/
def sayRows (row : Nat → String) (next : Nat) : Nat → Action Unit
  | 0 => pure ()
  | count + 1 => do
    say (row next)
    if (← current).outputFault.isNone then sayRows row (next + 1) count

/-- The numbers from one to another, with a text between them. -/
def seq : Program := fun name args => do
  let isNumber := fun (word : String) => (decimal? word).isSome
  let flags := args.takeWhile fun word => word.startsWith "-" && !isNumber word && word ≠ "-"
  let count := match flags with
    | [] => 0
    | flags => if flags.getLast? ∈ [some "-s", some "-f"] then flags.length + 1 else flags.length
  let (given, words) := if flags.head? ∈ [some "-s", some "-f"] then
      (args.take 2 ++ (args.drop 2).takeWhile (· = "-w"), (args.drop 2).dropWhile (· = "-w"))
    else (args.take count, args.drop count)
  let o : Options := ⟨"f:s:w", [("separator", 's'), ("format", 'f'), ("equal-width", 'w')], true, 1⟩
  let x ← o.of name given
  let words := x.operands ++ words
  let separator := (x.value? 's').getD "\n"
  if words = [] then misuse name "missing operand" 1
  if let extra :: _ := words.drop 3 then misuse name ("extra operand " ++ quoted extra) 1
  match words.find? (!isNumber ·) with
  | some word => misuse name ("invalid floating point argument: " ++ quoted word) 1
  | none => pure ()
  let numbers := words.filterMap decimal?
  let (first, step, last) := match numbers with
    | [last] => ((1, 0), (1, 0), last)
    | [first, last] => (first, (1, 0), last)
    | first :: step :: last :: _ => (first, step, last)
    | [] => ((1, 0), (1, 0), (0, 0))
  let places := max first.2 step.2
  let scale := max places last.2
  let scaled := fun (x : Int × Nat) => x.1 * Int.pow 10 (scale - x.2)
  let (least, step, most) := (scaled first, scaled step, scaled last)
  if step = 0 then misuse name ("invalid Zero increment value: " ++ quoted (words.getD 1 "")) 1
  let isEmpty := (0 < step ∧ most < least) ∨ (step < 0 ∧ least < most)
  let count := if isEmpty then 0 else (Int.tdiv (most - least) step + 1).toNat
  let shown := fun (n : Int) =>
    match x.value? 'f' with
    | some format => Octets.ofBytes (Format.Printed.bytesOf (Format.print format [decimalText scale n]).1)
    | none => decimalText places (Int.tdiv n (Int.pow 10 (scale - places)))
  let ends := [least, most, least + step * Int.ofNat (count - 1)].map shown
  let width := if x.has 'w' then ((ends.map String.length).max?).getD 0 else 0
  let padded := fun (text : String) =>
    let space := String.ofList (List.replicate (width - text.length) '0')
    if text.startsWith "-" then "-" ++ space ++ (text.drop 1).toString else space ++ text
  sayRows (fun i => (if i = 0 then "" else separator) ++ padded (shown (least + step * Int.ofNat i))) 0 count
  if count ≠ 0 then say "\n"

/-! ### expressions -/

namespace Expression

/-- Why an expression has no value. -/
inductive Fault where
  | notNumber
  | divisionByZero
  | unexpected (word : String)
  | missing (word : String)
  | unclosed (word : String)
  | regex (fault : Regex.Fault)

def Fault.message : Fault → String
  | .notNumber => "non-integer argument"
  | .divisionByZero => "division by zero"
  | .unexpected word => "syntax error: unexpected argument " ++ quoted word
  | .missing word => "syntax error: missing argument after " ++ quoted word
  | .unclosed word => "syntax error: expecting ')' after " ++ quoted word
  | .regex fault => fault.message

/-- The words that are left, and the one before them. -/
structure Progress where
  words : List String
  before : String

abbrev Evaluation := StateT Progress (Except Fault)

def number? (text : String) : Option Int :=
  match text.toList with
  | '-' :: rest => if rest ≠ [] ∧ rest.all Char.isDigit then (String.ofList rest).toNat?.map fun n => -(n : Int) else none
  | s => if s ≠ [] ∧ s.all Char.isDigit then (String.ofList s).toNat?.map fun n => (n : Int) else none

def numberOf (text : String) : Evaluation Int :=
  match number? text with
  | some n => return n
  | none => throw .notNumber

/-- Whether a text is as good as nothing. -/
def isNull (text : String) : Bool :=
  text = "" || (text.toList.dropWhile (· == '-')).all (· == '0') && (number? text).isSome

/-- The next word, which is passed over. -/
def next : Evaluation String := do
  let x ← get
  match x.words with
  | [] => throw (.missing x.before)
  | word :: rest =>
    set (Progress.mk rest word)
    return word

/-- One of some operators, if it is next. -/
def accept (operators : List String) : Evaluation (Option String) := do
  match (← get).words with
  | word :: _ => if word ∈ operators then return some (← next) else return none
  | [] => return none

/-- What a match of an expression at the beginning of a text gives: the group, or the length. -/
def matched (text pattern : String) : Evaluation String := do
  match Regex.parse ⟨false, false⟩ pattern.toList with
  | .error fault => throw (.regex fault)
  | .ok ⟨r, groups, _⟩ =>
    let field : Regex.Field := ⟨text.toList.toArray, false⟩
    match Regex.Field.longest (field.hits r ⟨0, []⟩) with
    | none => return if 0 < groups then "" else "0"
    | some h =>
      if 0 < groups then
        match h.groups.lookup 1 with
        | some (start, stop) => return String.ofList ((text.toList.drop start).take (stop - start))
        | none => return ""
      else return toString h.position

/-- Whether a comparison of two texts holds, as numbers if both are. -/
def compared (op a b : String) : Bool :=
  let order := match number? a, number? b with
    | some m, some n => compare m n
    | _, _ => compare a b
  match op with
  | "<" => order == .lt
  | "<=" => order != .gt
  | ">" => order == .gt
  | ">=" => order != .lt
  | "!=" => order != .eq
  | _ => order == .eq

mutual

/-- A value of words in parentheses, of a function or of a word. -/
def single : Nat → Evaluation String
  | 0 => return ""
  | n + 1 => do
    let x ← get
    match x.words with
    | [] => throw (.missing x.before)
    | "(" :: _ => do
      let _ ← next
      let value ← either n
      let y ← get
      match y.words with
      | ")" :: _ => do
        let _ ← next
        return value
      | [] => throw (.unclosed y.before)
      | word :: _ => throw (.unexpected word)
    | ")" :: _ => throw (.unexpected ")")
    | "+" :: _ => do
      let _ ← next
      next
    | "length" :: _ => do
      let _ ← next
      return toString (← single n).length
    | "match" :: _ => do
      let _ ← next
      let text ← single n
      matched text (← single n)
    | "index" :: _ => do
      let _ ← next
      let text ← single n
      let set ← single n
      return toString (match text.toList.findIdx? set.toList.contains with
        | some i => i + 1
        | none => 0)
    | "substr" :: _ => do
      let _ ← next
      let text ← single n
      let start ← single n
      let count ← single n
      match number? start, number? count with
      | some start, some count =>
        if start ≤ 0 ∨ count ≤ 0 then return ""
        else return String.ofList ((text.toList.drop (start.toNat - 1)).take count.toNat)
      | _, _ => return ""
    | _ => next

def colons : Nat → Evaluation String
  | 0 => return ""
  | n + 1 => do
    let first ← single n
    colonsRest n first

def colonsRest : Nat → String → Evaluation String
  | 0, value => return value
  | n + 1, value => do
    match ← accept [":"] with
    | none => return value
    | some _ => colonsRest n (← matched value (← single n))

def products : Nat → Evaluation String
  | 0 => return ""
  | n + 1 => do
    let first ← colons n
    productsRest n first

def productsRest : Nat → String → Evaluation String
  | 0, value => return value
  | n + 1, value => do
    match ← accept ["*", "/", "%"] with
    | none => return value
    | some op => do
      let second ← colons n
      let a ← numberOf value
      let b ← numberOf second
      if op ≠ "*" ∧ b = 0 then throw .divisionByZero
      productsRest n (toString (if op = "*" then a * b else if op = "/" then Int.tdiv a b else Int.tmod a b))

def sums : Nat → Evaluation String
  | 0 => return ""
  | n + 1 => do
    let first ← products n
    sumsRest n first

def sumsRest : Nat → String → Evaluation String
  | 0, value => return value
  | n + 1, value => do
    match ← accept ["+", "-"] with
    | none => return value
    | some op => do
      let second ← products n
      let a ← numberOf value
      let b ← numberOf second
      sumsRest n (toString (if op = "+" then a + b else a - b))

def comparisons : Nat → Evaluation String
  | 0 => return ""
  | n + 1 => do
    let first ← sums n
    comparisonsRest n first

def comparisonsRest : Nat → String → Evaluation String
  | 0, value => return value
  | n + 1, value => do
    match ← accept ["<", "<=", "=", "==", "!=", ">=", ">"] with
    | none => return value
    | some op => do
      let second ← sums n
      comparisonsRest n (if compared op value second then "1" else "0")

def both : Nat → Evaluation String
  | 0 => return ""
  | n + 1 => do
    let first ← comparisons n
    bothRest n first

/-- Values that must both be there, after a value. -/
def bothRest : Nat → String → Evaluation String
  | 0, value => return value
  | n + 1, value => do
    match ← accept ["&"] with
    | none => return value
    | some _ => do
      let second ← comparisons n
      bothRest n (if isNull value || isNull second then "0" else value)

/-- The first of values that is there. -/
def either : Nat → Evaluation String
  | 0 => return ""
  | n + 1 => do
    let first ← both n
    eitherRest n first

/-- The first of values that is there, after a value. -/
def eitherRest : Nat → String → Evaluation String
  | 0, value => return value
  | n + 1, value => do
    match ← accept ["|"] with
    | none => return value
    | some _ => do
      let second ← both n
      eitherRest n (if !isNull value then value else if isNull second then "0" else second)

end

def value (words : List String) : Except Fault String := do
  let (value, x) ← (either (16 * words.length + 16)).run ⟨words, ""⟩
  match x.words with
  | [] => return value
  | word :: _ => throw (.unexpected word)

end Expression

/-- The value of an expression is put out. -/
def expr : Program := fun name args => do
  let args := if args.head? = some "--" then args.tail else args
  if args = [] then misuse name "missing operand" 2
  match Expression.value args with
  | .ok value =>
    say (value ++ "\n")
    finish (if Expression.isNull value then 1 else 0)
  | .error fault => abort name fault.message 2

def test : Program := fun _ args => do
  try finish (← Builtin.test args)
  catch interrupt => if interrupt != .fault then throw interrupt

/-- A condition that a bracket has to close. -/
def bracket : Program := fun name args => do
  if args.getLast? = some "]" then test name args.dropLast
  else abort name ("missing " ++ quoted "]") 2

end Fleet.Shell.Tool
