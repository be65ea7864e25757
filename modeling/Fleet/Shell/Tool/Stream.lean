import Fleet.Shell.Escape
import Fleet.Shell.Tool

/-!
# Programs for whole inputs

Programs that give their input, or the first or last part of it, or its size.
-/

namespace Fleet.Shell.Tool

open Text (Bytes)

/-! ### cat and tee -/

/-- Whether an open file is the one that the process writes its output to, and holds more than has been read. -/
def isOutput (file : Nat) : Action Bool := do
  let s ← get
  let out := s.world.descriptor? s.id 1
  match s.world.location? file, out.bind s.world.location? with
  | some read, some written =>
    let offset := ((s.world.openFile? file).map OpenFile.offset).getD 0
    return read == written && offset < ((s.world.tree.file? read).getD []).length
  | _, _ => return false

/-- All that is left in an open file is put out, until that fails. -/
def pour (file : Nat) : Nat → Action Unit
  | 0 => pure ()
  | n + 1 => do
    let bytes ← collect file blockSize
    if !bytes.isEmpty then
      emit bytes
      if (← current).outputFault.isNone then pour file n

/-- A byte in the notation that shows what cannot be seen. -/
def visible (b : UInt8) : Bytes :=
  let plain := fun (b : UInt8) => if b < 32 then [94, b + 64] else if b = 127 then [94, 63] else [b]
  if b < 128 then (if b = 9 ∨ b = 10 then [b] else plain b) else [77, 45] ++ plain (b - 128)

def lineNumber (width n : Nat) : String :=
  let digits := toString n
  String.ofList (List.replicate (width - digits.length) ' ') ++ digits

/-- The lines of bytes in the notation that options ask for. -/
def annotated (x : Arguments) (bytes : Bytes) : Bytes :=
  let seen := x.hasAny ['v', 'e', 't', 'A']
  let ends := x.hasAny ['E', 'e', 'A']
  let tabs := x.hasAny ['T', 't', 'A']
  let step := fun (state : Nat × Bool × List Bytes) (line : Bytes) =>
    let (n, wasEmpty, out) := state
    let body := bare line
    if x.has 's' && wasEmpty && body.isEmpty && line != [] then state
    else
      let isNumbered := if x.has 'b' then !body.isEmpty else x.has 'n'
      let start := if isNumbered then Octets.bytes (lineNumber 6 n ++ "\t") else []
      let shown := body.flatMap fun b =>
        if b = 9 ∧ tabs then [94, 73] else if seen then visible b else [b]
      let finish := if body.length < line.length then (if ends then [36, 10] else [10]) else []
      (if isNumbered then n + 1 else n, body.isEmpty, (start ++ shown ++ finish) :: out)
  ((lines bytes).foldl step (1, false, [])).2.2.reverse.flatten

/-- The bytes of files one after the other. -/
def cat : Program := fun name args => do
  let x ← (options "AbeEnstTuv" [("number", 'n'), ("show-all", 'A'), ("show-ends", 'E'), ("show-tabs", 'T'),
    ("squeeze-blank", 's'), ("number-nonblank", 'b'), ("show-nonprinting", 'v')]).of name args
  let s ← get
  if (s.world.descriptor? s.id 1).isNone then
    abort name "standard output: Bad file descriptor" 1
  holdBack false
  let isPlain := x.flags.all (·.1 = "u")
  let mut gathered : Bytes := []
  for path in if x.operands.isEmpty then ["-"] else x.operands do
    match ← source path with
    | .error fault => refuse name path (unreadable path fault) fault
    | .ok file =>
      if ← isOutput file then fail name (path ++ ": input file is output file")
      else if isPlain then withSource file (pour file patience)
      else gathered := gathered ++ (← withSource file (collectAll file patience []))
  if !isPlain then emit (annotated x gathered)

/-- Blocks of an open file go to the output and to other open files. -/
def spread (input : Nat) (files : List Nat) : Nat → Action Unit
  | 0 => pure ()
  | n + 1 => do
    let bytes ← collect input blockSize
    if !bytes.isEmpty then
      emit bytes
      for file in files do
        let _ ← deposit file patience bytes
      spread input files n

/-- The bytes of the input go to the output and to files. -/
def tee : Program := fun name args => do
  let x ← (options "aip" [("append", 'a')]).of name args
  holdBack false
  let mut files := []
  for path in x.operands do
    match ← openFile (if x.has 'a' then .append else .write) path with
    | .ok file => files := files ++ [file]
    | .error fault => fail name (unreadable path fault)
  match ← source "-" with
  | .ok input => spread input files patience
  | .error fault => refuse name "-" "" fault

/-! ### parts -/

/-- How much of its input `head` or `tail` gives. -/
structure Extent where
  count : Nat
  inBytes : Bool
  /-- the count is told from the other end -/
  isTurned : Bool

/-- The number that a count with a suffix for thousands is. -/
def countOf? (word : String) : Option Nat :=
  let (digits, suffix) := word.toList.span Char.isDigit
  let factors := [("", 1), ("b", 512), ("K", 1024), ("k", 1024), ("KiB", 1024), ("kB", 1000), ("KB", 1000),
    ("M", 1048576), ("MB", 1000000), ("G", 1073741824)]
  match factors.lookup (String.ofList suffix) with
  | some factor => if digits = [] then none else (String.ofList digits).toNat?.map (· * factor)
  | none => none

/-- The extent that an option asks for.  A sign tells the end to count from. -/
def extentOf (name : String) (turn : Char) (inBytes : Bool) (word : String) : Action Extent := do
  let (isTurned, digits) := match word.toList with
    | c :: rest => if c = turn then (true, rest) else if c = '+' ∨ c = '-' then (false, rest) else (false, c :: rest)
    | [] => (false, [])
  match countOf? (String.ofList digits) with
  | some count => return ⟨count, inBytes, isTurned⟩
  | none =>
    abort name ("invalid number of " ++ (if inBytes then "bytes" else "lines") ++ ": " ++ quoted word) 1

/-- Arguments in which an extent is told by a number alone, with that of the usual form. -/
def unshortened (args : List String) : List String :=
  match args with
  | word :: rest =>
    match word.toList with
    | '-' :: c :: digits => if c.isDigit then "-n" :: String.ofList (c :: digits) :: rest else args
    | _ => args
  | [] => []

/-- How many bytes `head` reads at once. -/
def headBlock : Nat := 8192

/-- The first lines of an open file are put out.  Of a file no more is read than that; of a pipe, whole blocks. -/
def firstLines (file : Nat) : Nat → Nat → Action Unit
  | 0, _ | _, 0 => pure ()
  | n + 1, count => do
    let isPlace := ((← get).world.location? file).isSome
    let bytes ← collect file headBlock
    if !bytes.isEmpty then
      let found := (lines bytes).take count
      let part := found.flatten
      let back := bytes.length - part.length
      if isPlace && 0 < back then
        alter fun w => { w with openFiles := w.openFiles.modify file fun f => { f with offset := f.offset - back } }
      emit part
      if (← current).outputFault.isNone then
        firstLines file n (count - (found.filter fun line => line.getLast? = some 10).length)

def firstBytes (file : Nat) : Nat → Nat → Action Unit
  | 0, _ | _, 0 => pure ()
  | n + 1, count => do
    let bytes ← collect file (min count headBlock)
    if !bytes.isEmpty then
      emit bytes
      if (← current).outputFault.isNone then firstBytes file n (count - bytes.length)

/-- The words for an operand that cannot be opened to be read. -/
def unopened (path : String) (fault : SystemFault) : String :=
  match fault with
  | .isDirectory => "error reading " ++ quoted path ++ ": " ++ reason fault
  | fault => "cannot open " ++ quoted path ++ " for reading: " ++ reason fault

/-- The part of each file that `head` or `tail` gives, behind a title if there are several.  A file that cannot be
opened has no title. -/
def partOfEach (name : String) (turn : Char) (give : Extent → Nat → Action Unit) (args : List String) : Action Unit := do
  let x ← (options "c:n:qvfz" [("lines", 'n'), ("bytes", 'c'), ("quiet", 'q'), ("silent", 'q'), ("verbose", 'v')]).of
    name (unshortened args)
  let extent ← match x.flags.reverse.find? fun flag => flag.1 ∈ ["n", "c"] with
    | some (kind, word) => extentOf name turn (kind = "c") word
    | none => pure ⟨10, false, false⟩
  let paths := if x.operands.isEmpty then ["-"] else x.operands
  let hasTitle := x.has 'v' || (1 < paths.length && !x.has 'q')
  let mut isFirst := true
  for path in paths do
    let opened ← source path
    let isOpen := match opened with
      | .ok _ | .error .isDirectory => true
      | .error _ => path = "-"
    if hasTitle && isOpen then
      say ((if isFirst then "" else "\n") ++ "==> " ++ (if path = "-" then "standard input" else path) ++ " <==\n")
      isFirst := false
    match opened with
    | .ok file => withSource file (give extent file)
    | .error fault => refuse name path (unopened path fault) fault

def head : Program := fun name args =>
  partOfEach name '-' (fun extent file => do
    if extent.isTurned then
      let bytes ← collectAll file patience []
      if extent.inBytes then emit (bytes.take (bytes.length - extent.count))
      else
        let all := lines bytes
        emit (all.take (all.length - extent.count)).flatten
    else if extent.inBytes then firstBytes file patience extent.count
    else firstLines file patience extent.count) args

def tail : Program := fun name args => do
  if let word :: _ :: _ :: _ := args then
    match word.toList with
    | '-' :: c :: digits =>
      if c.isDigit then
        abort name ("option used in invalid context -- " ++ String.singleton ((c :: digits).getLastD c)) 1
    | _ => pure ()
  partOfEach name '+' (fun extent file => do
    let bytes ← collectAll file patience []
    let all := lines bytes
    emit (match extent.inBytes, extent.isTurned with
      | true, true => bytes.drop (extent.count - 1)
      | true, false => bytes.drop (bytes.length - extent.count)
      | false, true => (all.drop (extent.count - 1)).flatten
      | false, false => (all.drop (all.length - extent.count)).flatten)) args

/-! ### without end -/

/-- Bytes are put out again and again, until that fails. -/
def repeatedly (bytes : Bytes) : Nat → Action Unit
  | 0 => pure ()
  | n + 1 => do
    emit bytes
    elapse 1
    if (← current).outputFault.isNone then repeatedly bytes n

def yes : Program := fun _ args => do
  let args := if args.head? = some "--" then args.tail else args
  holdBack false
  let line := Octets.bytes ((if args = [] then "y" else String.intercalate " " args) ++ "\n")
  repeatedly (List.replicate (max 1 (headBlock / line.length)) line).flatten patience

/-! ### sizes -/

/-- The counts that `wc` tells of bytes: lines, words, characters, bytes and the longest line. -/
def counts (x : Arguments) (bytes : Bytes) : List Nat :=
  let isWanted := fun (c : Char) => x.has c || (x.flags.isEmpty && c ∈ ['l', 'w', 'c'])
  let isBlank := fun (b : UInt8) => b == 32 || (9 ≤ b && b ≤ 13)
  let words := (bytes.foldl (fun (count, inWord) b =>
    if isBlank b then (count, false) else (if inWord then count else count + 1, true)) (0, false)).1
  [('l', bytes.count 10), ('w', words), ('m', bytes.length), ('c', bytes.length),
    ('L', ((lines bytes).map fun line => (bare line).length).max?.getD 0)].filterMap
    fun (c, n) => if isWanted c then some n else none

/-- The numbers of lines, words and bytes. -/
def wc : Program := fun name args => do
  let x ← (options "clmwL" [("lines", 'l'), ("words", 'w'), ("bytes", 'c'), ("chars", 'm'), ("max-line-length", 'L')]).of
    name args
  let paths := if x.operands.isEmpty then ["-"] else x.operands
  let mut sizes : List (Option Nat) := []
  for path in paths do
    let s ← get
    let d ← here
    let location? := if path = "-" then (s.world.descriptor? s.id 0).bind s.world.location?
      else (d.find (Octets.path path)).toOption.map (·.location)
    match location?.bind s.world.tree.at? with
    | some (.file bytes _) => sizes := sizes ++ [some bytes.length]
    | some _ => sizes := sizes ++ [none]
    | none => if path = "-" && (s.world.descriptor? s.id 0).isSome then sizes := sizes ++ [none]
  let columns := (counts x []).length
  let total := sizes.foldl (fun n size => n + size.getD 0) 0
  let width :=
    if paths.length = 1 ∧ columns = 1 then 1
    else max (if sizes.any Option.isNone then 7 else 1) (toString total).length
  let line := fun (numbers : List Nat) (label : String) =>
    say (String.intercalate " " (numbers.map (lineNumber width ·)) ++ label ++ "\n")
  let mut sums := List.replicate columns 0
  for path in paths do
    match ← input path with
    | .ok bytes =>
      let numbers := counts x bytes
      sums := (sums.zip numbers).map fun (a, b) => a + b
      line numbers (if x.operands.isEmpty then "" else " " ++ path)
    | .error fault =>
      refuse name path (unreadable path fault) fault
      if path = "-" || fault = .isDirectory then
        line (List.replicate columns 0) (if x.operands.isEmpty then "" else " " ++ path)
  if 1 < paths.length then line sums " total"

/-! ### lines in another form -/

/-- The lines of each file, the last one first. -/
def tac : Program := fun name args => do
  let x ← (options "" []).of name args
  let mut turned := []
  for path in if x.operands.isEmpty then ["-"] else x.operands do
    match ← input path with
    | .ok bytes => turned := turned ++ (lines bytes).reverse.flatten
    | .error .isDirectory =>
      let fault := SystemFault.described "Invalid argument"
      refuse name path (path ++ ": read error: " ++ reason fault) fault
    | .error fault => refuse name path ("failed to open " ++ quoted path ++ " for reading: " ++ reason fault) fault
  emit turned

/-- The lines with their characters in reverse. -/
def rev : Program := fun name args => do
  let x ← (options "" []).of name args
  let mut turned := []
  for path in if x.operands.isEmpty then ["-"] else x.operands do
    match ← input path with
    | .ok bytes =>
      turned := turned ++ (lines bytes).flatMap fun line =>
        (bare line).reverse ++ if line.getLast? = some 10 then [10] else []
    | .error .isDirectory => fail name (path ++ ": " ++ reason .isDirectory)
    | .error fault => fail name ("cannot open " ++ path ++ ": " ++ reason fault)
  emit turned

def nl : Program := fun name args => do
  let x ← (options "b:w:s:v:n:" []).of name args
  let width := ((x.value? 'w').bind String.toNat?).getD 6
  let separator := (x.value? 's').getD "\t"
  let all := x.value? 'b' == some "a"
  let mut n := ((x.value? 'v').bind String.toNat?).getD 1
  for path in if x.operands.isEmpty then ["-"] else x.operands do
    match ← input path with
    | .error fault => refuse name path (unreadable path fault) fault
    | .ok bytes =>
      for line in lines bytes do
        if all || bare line ≠ [] then
          let digits := toString n
          let shown := match x.value? 'n' with
            | some "ln" => digits ++ String.ofList (List.replicate (width - digits.length) ' ')
            | some "rz" => String.ofList (List.replicate (width - digits.length) '0') ++ digits
            | _ => lineNumber width n
          emit (Octets.bytes (shown ++ separator) ++ bare line ++ [10])
          n := n + 1
        else emit (Octets.bytes (String.ofList (List.replicate (width + separator.length) ' ')) ++ [10])

/-- Lines in pieces of at most so many bytes. -/
def pieces (width : Nat) : Nat → Bytes → List Bytes
  | 0, line => [line]
  | n + 1, line => if line.length ≤ width then [line] else line.take width :: pieces width n (line.drop width)

/-- Lines that are no longer than a width. -/
def fold : Program := fun name args => do
  let x ← (options "bsw:" [("width", 'w')]).of name (match args with
    | word :: rest => if (word.toList.drop 1).all Char.isDigit && word.length > 1 && word.startsWith "-" then
        "-w" :: (word.drop 1).toString :: rest else args
    | [] => [])
  let width := ((x.value? 'w').bind String.toNat?).getD 80
  if width = 0 then abort name ("invalid number of columns: " ++ quoted ((x.value? 'w').getD "")) 1
  eachInput name x.operands fun _ bytes => do
    for line in lines bytes do
      let body := bare line
      let parts := if x.has 's' then broken width (body.length + 1) body else pieces width body.length body
      emit (List.intercalate [10] parts ++ (if line.getLast? = some 10 then [10] else []))
where
  /-- Pieces that end behind blanks, where there are some. -/
  broken (width : Nat) : Nat → Bytes → List Bytes
    | 0, line => [line]
    | n + 1, line =>
      if line.length ≤ width then [line]
      else
        let first := line.take width
        let upToBlank := (first.reverse.dropWhile (· != 32)).reverse
        let part := if upToBlank.isEmpty then first else upToBlank
        part :: broken width n (line.drop part.length)

/-- The lines of files side by side, or those of each file in one line. -/
def paste : Program := fun name args => do
  let x ← (options "d:s" [("delimiters", 'd'), ("serial", 's')]).of name args
  let separators := Octets.chars (Escape.bytes .format ((x.value? 'd').getD "\t")).1
  let separator := fun (i : Nat) =>
    if separators.isEmpty then "" else String.singleton (separators.getD (i % separators.length) '\t')
  let join := fun (texts : List String) =>
    String.join (texts.zipIdx.map fun (text, i) => (if i = 0 then "" else separator (i - 1)) ++ text) ++ "\n"
  let mut columns : List (List String) := []
  let mut fromInput : Option (List String) := none
  let paths := if x.operands.isEmpty then ["-"] else x.operands
  let inputs := (paths.filter (· = "-")).length
  let mut turn := 0
  for path in paths do
    if path = "-" ∧ fromInput.isNone then
      match ← input path with
      | .ok bytes => fromInput := some (textLines bytes)
      | .error fault => refuse name path (unreadable path fault) fault
    if path = "-" then
      let all := fromInput.getD []
      let own := if inputs = 1 ∨ x.has 's' then all else (all.zipIdx.filter fun (_, i) => i % inputs = turn).map (·.1)
      columns := columns ++ [own]
      turn := turn + 1
    else
      match ← input path with
      | .ok bytes => columns := columns ++ [textLines bytes]
      | .error fault => abort name (unreadable path fault) 1
  if x.has 's' then say (String.join (columns.map join))
  else
    let rows := ((columns.map List.length).max?).getD 0
    say (String.join ((List.range rows).map fun i => join (columns.map fun column => column.getD i "")))

end Fleet.Shell.Tool
