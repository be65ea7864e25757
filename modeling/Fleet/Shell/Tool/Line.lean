import Fleet.Shell.Escape
import Fleet.Shell.Tool

/-!
# Programs for lines

Programs that order and compare the lines of their input, and choose parts of them.
-/

namespace Fleet.Shell.Tool

open Text (Bytes)

/-! ### order -/

/-- The number that a text begins with after blanks, as its sign and its digits before and after the point. -/
def leadingNumber (s : List Char) : Bool × List Char × List Char :=
  let s := s.dropWhile Numeral.isBlank
  let (isNegative, s) := match s with
    | '-' :: rest => (true, rest)
    | s => (false, s)
  let (whole, s) := s.span Char.isDigit
  let fraction := match s with
    | '.' :: rest => rest.takeWhile Char.isDigit
    | _ => []
  (isNegative, whole.dropWhile (· == '0'), (fraction.reverse.dropWhile (· == '0')).reverse)

/-- Whether a number that texts begin with is less than, or equal to, that of another one. -/
def compareNumbers (a b : List Char) : Ordering :=
  let magnitude := fun (x y : Bool × List Char × List Char) =>
    (compare x.2.1.length y.2.1.length).then ((compareChars x.2.1 y.2.1).then (compareChars x.2.2 y.2.2))
  let x := leadingNumber a
  let y := leadingNumber b
  let isZero := fun (x : Bool × List Char × List Char) => x.2.1 = [] ∧ x.2.2 = []
  let xNegative := x.1 ∧ !decide (isZero x)
  let yNegative := y.1 ∧ !decide (isZero y)
  if xNegative ∧ !decide yNegative then .lt
  else if yNegative ∧ !decide xNegative then .gt
  else if xNegative then magnitude y x
  else magnitude x y
where
  /-- The order of texts by their characters. -/
  compareChars (a b : List Char) : Ordering := if a < b then .lt else if b < a then .gt else .eq

/-- What lines are ordered by. -/
structure SortKey where
  /-- the first field and the first character in it -/
  start : Nat × Nat
  /-- the last field and the last character in it, where 0 is the whole field -/
  stop : Option (Nat × Nat)
  flags : List Char

namespace SortKey

/-- The place that a text such as `2.3n` tells, and the letters behind it. -/
def place (s : List Char) : Nat × Nat × List Char :=
  let number := fun (s : List Char) => ((String.ofList (s.takeWhile Char.isDigit)).toNat?.getD 0, s.dropWhile Char.isDigit)
  let (field, s) := number s
  match s with
  | '.' :: rest =>
    let (column, rest) := number rest
    (field, column, rest)
  | s => (field, 0, s)

def ofText (text : String) : SortKey :=
  let (first, last) := text.toList.span (· != ',')
  let (field, column, flags) := place first
  match last with
  | _ :: last =>
    let (lastField, lastColumn, more) := place last
    ⟨(field, max 1 column), some (lastField, lastColumn), flags ++ more⟩
  | [] => ⟨(field, max 1 column), none, flags⟩

/-- The fields of a line.  Without a separator each has the blanks before it. -/
def fieldsOf (separator : Option Char) (line : List Char) : List (List Char) :=
  match separator with
  | some c => line.splitOn c
  | none => blankFields (line.length + 1) line
where
  /-- The fields between blanks. -/
  blankFields : Nat → List Char → List (List Char)
    | 0, _ | _, [] => []
    | n + 1, s =>
      let (blanks, rest) := s.span fun c => c == ' ' || c == '\t'
      let (word, rest) := rest.span fun c => !(c == ' ' || c == '\t')
      (blanks ++ word) :: blankFields n rest

def part (separator : Option Char) (key : SortKey) (line : List Char) : List Char :=
  let fields := fieldsOf separator line
  let gap := separator.toList
  let skipsBlanks := key.flags.contains 'b'
  let trim := fun (s : List Char) => if skipsBlanks then s.dropWhile fun c => c == ' ' || c == '\t' else s
  match key.stop with
  | none =>
    match fields.drop (key.start.1 - 1) with
    | [] => []
    | first :: rest => List.intercalate gap ((trim first).drop (key.start.2 - 1) :: rest)
  | some (last, column) =>
    let chosen := (fields.take last).drop (key.start.1 - 1)
    let cut := fun (s : List Char) => if column = 0 ∨ chosen.length + key.start.1 - 1 < last then s else s.take column
    match chosen with
    | [] => []
    | [only] => (cut (trim only)).drop (key.start.2 - 1)
    | first :: rest => List.intercalate gap ((trim first).drop (key.start.2 - 1) :: rest.dropLast ++ [cut (rest.getLastD [])])

end SortKey

def compareKeys (flags : List Char) (a b : List Char) : Ordering :=
  let fold := fun (s : List Char) => if flags.contains 'f' then s.map Char.toUpper else s
  let keep := fun (s : List Char) =>
    if flags.contains 'd' then s.filter fun c => c.isAlphanum || c == ' ' || c == '\t' else s
  let trim := fun (s : List Char) => if flags.contains 'b' then s.dropWhile fun c => c == ' ' || c == '\t' else s
  let order :=
    if flags.any (· ∈ ['n', 'g', 'h']) then compareNumbers a b
    else compareNumbers.compareChars (keep (fold (trim a))) (keep (fold (trim b)))
  if flags.contains 'r' then order.swap else order

/-- The order of lines by keys, and by their characters if that is not the last word. -/
def compareLines (separator : Option Char) (keys : List SortKey) (flags : List Char) (isLast : Bool)
    (a b : List Char) : Ordering :=
  let byKeys :=
    if keys.isEmpty then compareKeys flags a b
    else keys.foldl (fun order key =>
      let own := if key.flags.isEmpty then { key with flags } else key
      order.then (compareKeys own.flags (own.part separator a) (own.part separator b))) .eq
  let whole := compareNumbers.compareChars a b
  byKeys.then (if isLast then .eq else if flags.contains 'r' then whole.swap else whole)

def sort : Program := fun name args => do
  let o : Options := ⟨"bcCdfghik:mMno:rRsS:t:uVz", [("numeric-sort", 'n'), ("reverse", 'r'), ("unique", 'u'), ("key", 'k'),
    ("field-separator", 't'), ("output", 'o'), ("check", 'c'), ("stable", 's'), ("ignore-case", 'f'),
    ("ignore-leading-blanks", 'b'), ("general-numeric-sort", 'g'), ("human-numeric-sort", 'h')], false, 2⟩
  let x ← o.of name args
  let flags := ['b', 'd', 'f', 'g', 'h', 'n', 'r'].filter x.has
  let keys := (x.values 'k').map SortKey.ofText
  let separator := (x.value? 't').bind fun t => if t = "\\0" then some '\x00' else t.toList.head?
  let mut all : List String := []
  for path in if x.operands.isEmpty then ["-"] else x.operands do
    match ← input path with
    | .ok bytes => all := all ++ textLines bytes
    | .error fault =>
      if path = "-" then
        refuse name path "" fault
        quit 2
      abort name ((if fault = .isDirectory then "read failed: " else "cannot read: ") ++ unreadable path fault) 2
  let order := fun (isLast : Bool) (a b : String) => compareLines separator keys flags isLast a.toList b.toList
  let isStable := x.has 's' || x.has 'u'
  if x.hasAny ['c', 'C'] then
    let pairs := all.zip all.tail
    let isWrong := fun (pair : String × String) =>
      let o := order true pair.1 pair.2
      o == .gt || (x.has 'u' && o == .eq) || (!x.has 'u' && !x.has 's' && order false pair.1 pair.2 == .gt)
    match pairs.findIdx? isWrong with
    | some i =>
      if x.has 'c' then
        warn (name ++ ": " ++ x.operands.headD "-" ++ ":" ++ toString (i + 2) ++ ": disorder: " ++ all.getD (i + 1) "")
      finish 1
    | none => pure ()
  else
    let sorted := all.mergeSort fun a b => order isStable a b != .gt
    let kept := if x.has 'u' then firsts (order true) sorted else sorted
    let text := String.join (kept.map (· ++ "\n"))
    match x.value? 'o' with
    | none => say text
    | some path =>
      match ← openFile .write path with
      | .ok file =>
        let _ ← deposit file patience (Octets.bytes text)
      | .error fault => abort name ("open failed: " ++ unreadable path fault) 2
where
  /-- The first lines of runs of equal ones. -/
  firsts (order : String → String → Ordering) (all : List String) : List String :=
    (all.foldl (fun kept line =>
      match kept with
      | last :: _ => if order last line == .eq then kept else line :: kept
      | [] => [line]) []).reverse

/-! ### repetitions -/

/-- The runs of lines that are alike, each as its first line and its length. -/
def runs (key : String → String) : List String → List (String × Nat)
  | [] => []
  | line :: rest =>
    match runs key rest with
    | (other, n) :: more => if key line = key other then (line, n + 1) :: more else (line, 1) :: (other, n) :: more
    | [] => [(line, 1)]

/-- One line for each run of lines that are alike. -/
def uniq : Program := fun name args => do
  let x ← (options "cdDf:is:uw:z" [("count", 'c'), ("repeated", 'd'), ("unique", 'u'), ("ignore-case", 'i'),
    ("skip-fields", 'f'), ("skip-chars", 's'), ("check-chars", 'w')]).of name args
  let number := fun (c : Char) => (x.value? c).bind String.toNat?
  let key := fun (line : String) =>
    let s := (List.range ((number 'f').getD 0)).foldl (fun s _ =>
      (s.dropWhile fun c => c == ' ' || c == '\t').dropWhile fun c => !(c == ' ' || c == '\t')) line.toList
    let s := s.drop ((number 's').getD 0)
    let s := (number 'w').elim s s.take
    String.ofList (if x.has 'i' then s.map Char.toLower else s)
  match ← input (x.operands.headD "-") with
  | .error fault =>
    let path := x.operands.headD "-"
    let words := if fault = .isDirectory then "error reading " ++ quoted path ++ ": " ++ reason fault else unreadable path fault
    refuse name path words fault
  | .ok bytes =>
    let kept := (runs key (textLines bytes)).filter fun (_, n) =>
      (!x.has 'd' || 1 < n) && (!x.has 'u' || n == 1)
    let text := String.join (kept.map fun (line, n) =>
      let digits := toString n
      (if x.has 'c' then String.ofList (List.replicate (7 - digits.length) ' ') ++ digits ++ " " else "") ++ line ++ "\n")
    match x.operands[1]? with
    | none => say text
    | some path =>
      match ← openFile .write path with
      | .ok file =>
        let _ ← deposit file patience (Octets.bytes text)
      | .error fault => fail name (unreadable path fault)

/-- The lines of two ordered files that only one of them has, and those that both have. -/
def comm : Program := fun name args => do
  let x ← (options "123" []).of name args
  match x.operands with
  | [first, second] =>
    match ← input first, ← input second with
    | .ok a, .ok b =>
      let rows := merged (a.length + b.length + 2) (textLines a) (textLines b)
      let indent := fun (column : Nat) =>
        String.join ((List.range column).map fun i => if x.has (Char.ofNat ('1'.toNat + i)) then "" else "\t")
      say (String.join (rows.filterMap fun (column, line) =>
        if x.has (Char.ofNat ('1'.toNat + column)) then none else some (indent column ++ line ++ "\n")))
    | .error fault, _ => fail name (unreadable first fault)
    | _, .error fault => fail name (unreadable second fault)
  | [] => misuse name "missing operand" 1
  | [only] => misuse name ("missing operand after " ++ quoted only) 1
  | _ :: _ :: extra :: _ => misuse name ("extra operand " ++ quoted extra) 1
where
  /-- The lines of both, with the columns that they stand in. -/
  merged : Nat → List String → List String → List (Nat × String)
    | 0, _, _ => []
    | _, [], rest => rest.map (1, ·)
    | _, rest, [] => rest.map (0, ·)
    | n + 1, a :: as, b :: bs =>
      if a = b then (2, a) :: merged n as bs
      else if a < b then (0, a) :: merged n as (b :: bs)
      else (1, b) :: merged n (a :: as) bs

/-! ### parts of lines -/

/-- The ranges of a list such as `1,3-5,7-`, ends included. -/
def positions? (list : String) : Option (List (Nat × Option Nat)) :=
  (list.toList.splitOnP fun c => c == ',' || c == ' ').mapM fun item =>
    let number := fun (digits : List Char) => (String.ofList digits).toNat?
    match item.span (· != '-') with
    | (first, []) => (number first).map fun n => (n, some n)
    | ([], [_]) => none
    | (first, _ :: last) =>
      match first, last, number first, number last with
      | [], _, _, some n => some (1, some n)
      | _, [], some n, _ => some (n, none)
      | _, _, some m, some n => some (m, some n)
      | _, _, _, _ => none

def isWithin (ranges : List (Nat × Option Nat)) (i : Nat) : Bool :=
  ranges.any fun (first, last) => first ≤ i && last.all (i ≤ ·)

/-- The chosen bytes or fields of each line. -/
def cut : Program := fun name args => do
  let x ← (options "b:c:d:f:nsO:z" [("bytes", 'b'), ("characters", 'c'), ("delimiter", 'd'), ("fields", 'f'),
    ("only-delimited", 's'), ("output-delimiter", 'O'), ("complement", 'C')]).of name
    (args.map fun word => if word = "--complement" then "--complement=" else word)
  let isTurned := x.has 'C'
  let lists := ['b', 'c', 'f'].filterMap fun c => (x.value? c).map (c, ·)
  match lists with
  | [] => misuse name "you must specify a list of bytes, characters, or fields" 1
  | _ :: _ :: _ => misuse name "only one type of list may be specified" 1
  | [(kind, list)] =>
    let delimiter ← match (x.value? 'd').map Octets.bytes with
      | none => pure 9
      | some [] => pure 0
      | some [b] => pure b
      | some _ => misuse name "the delimiter must be a single character" 1
    match positions? list with
    | none =>
      if kind = 'f' then misuse name ("invalid field value " ++ quoted list) 1
      else misuse name ("invalid byte/character position " ++ quoted list) 1
    | some ranges =>
      if ranges.any (·.1 = 0) then
        misuse name (if kind = 'f' then "fields are numbered from 1" else "byte/character positions are numbered from 1") 1
      if ranges.any fun (m, n) => n.any (· < m) then misuse name "invalid decreasing range" 1
      let isChosen := fun (i : Nat) => isWithin ranges i != isTurned
      let chosen := fun {α : Type} (items : List α) => ((items.zipIdx 1).filter fun (_, i) => isChosen i).map (·.1)
      eachInput name x.operands fun _ bytes => do
        for line in lines bytes do
          let body := bare line
          if kind = 'f' then
            let fields := body.splitOn delimiter
            if fields.length = 1 then emit (if x.has 's' then [] else body ++ [10])
            else
              let joint := ((x.value? 'O').map Octets.bytes).getD [delimiter]
              emit (List.intercalate joint (chosen fields) ++ [10])
          else emit (chosen body ++ [10])

end Fleet.Shell.Tool
