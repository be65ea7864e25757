import Fleet.Shell.Escape
import Fleet.Shell.Pattern
import Fleet.Shell.Tool

/-!
# Replacing bytes

The program that replaces the bytes of its input by others, leaves them out, or leaves out their repetitions.
-/

namespace Fleet.Shell.Tool

open Text (Bytes)

/-- A part of a set of bytes: a byte, or one that is repeated as often as is needed or told. -/
structure SetPart where
  bytes : Bytes
  /-- the bytes are repeated until the set is as long as the other one -/
  isFilling : Bool

/-- The byte that a text begins with, with its escape read, and the rest. -/
def setByte : List Char → Option (UInt8 × List Char)
  | '\\' :: c :: rest =>
    if Escape.isOctal c then some (Escape.octalByte 3 (c :: rest))
    else some (.ofNat ((Escape.letter? c |>.filter fun _ => c != 'e').getD c.toNat), rest)
  | c :: rest => some (.ofNat c.toNat, rest)
  | [] => none

def kindBytes (name : String) : Option Bytes :=
  (Pattern.kinds.lookup name).map fun isKind =>
    ((List.range 128).filter fun n => isKind (Char.ofNat n)).map UInt8.ofNat

/-- The bytes that the characters of a set stand for, or what is wrong with it. -/
def setParts : Nat → List Char → Except String (List SetPart)
  | 0, _ | _, [] => .ok []
  | n + 1, s => do
    let single := fun (s : List Char) => do
      match setByte s with
      | none => return []
      | some (first, rest) =>
        match rest with
        | '-' :: c :: more =>
          match setByte (c :: more) with
          | some (last, more) =>
            if last < first then
              throw ("range-endpoints of '" ++ Octets.ofBytes [first] ++ "-" ++ Octets.ofBytes [last] ++
                "' are in reverse collating sequence order")
            let range := (List.range (last.toNat + 1 - first.toNat)).map fun i => UInt8.ofNat (first.toNat + i)
            return ⟨range, false⟩ :: (← setParts n more)
          | none => return [⟨[first], false⟩]
        | rest => return ⟨[first], false⟩ :: (← setParts n rest)
    match s with
    | '[' :: ':' :: rest =>
      let name := rest.takeWhile (· != ':')
      match rest.drop name.length with
      | ':' :: ']' :: more =>
        match kindBytes (String.ofList name) with
        | some bytes => return ⟨bytes, false⟩ :: (← setParts n more)
        | none => throw ("invalid character class '" ++ String.ofList name ++ "'")
      | _ => single s
    | '[' :: '=' :: c :: '=' :: ']' :: more => return ⟨Octets.bytesOf [c], false⟩ :: (← setParts n more)
    | '[' :: rest =>
      match setByte rest with
      | some (byte, '*' :: more) =>
        let digits := more.takeWhile Char.isDigit
        match more.drop digits.length with
        | ']' :: more =>
          let count := if digits.head? = some '0' then Escape.octal digits else (String.ofList digits).toNat?.getD 0
          let part : SetPart := if count = 0 then ⟨[byte], true⟩ else ⟨List.replicate count byte, false⟩
          return part :: (← setParts n more)
        | _ => single s
      | _ => single s
    | s => single s

/-- The bytes of a set that is to be as long as another one. -/
def filled (length : Nat) (parts : List SetPart) : Bytes :=
  let known := (parts.filter (!·.isFilling)).foldl (fun n part => n + part.bytes.length) 0
  parts.flatMap fun part =>
    if part.isFilling then List.replicate (length - known) (part.bytes.headD 0) else part.bytes

/-- The bytes without repetitions of the ones in a set. -/
def squeeze (isIn : UInt8 → Bool) : Bytes → Bytes
  | a :: b :: rest => if a = b ∧ isIn a then squeeze isIn (b :: rest) else a :: squeeze isIn (b :: rest)
  | bytes => bytes

/-- The bytes of the input go to the output, block by block, each changed by a step that remembers the last byte. -/
def replacing (file : Nat) (change : Option UInt8 → Bytes → Bytes) : Nat → Option UInt8 → Action Unit
  | 0, _ => pure ()
  | n + 1, last => do
    let bytes ← collect file blockSize
    if !bytes.isEmpty then
      let out := change last bytes
      emit out
      if (← current).outputFault.isNone then replacing file change n (out.getLast? <|> last)

def tr : Program := fun name args => do
  let o : Options := ⟨"cCdst", [("complement", 'c'), ("delete", 'd'), ("squeeze-repeats", 's'), ("truncate-set1", 't')], true, 1⟩
  let x ← o.of name args
  let deletes := x.has 'd'
  let squeezes := x.has 's'
  let needed := if deletes != squeezes then 1 else 2
  match x.operands with
  | [] => misuse name "missing operand" 1
  | words =>
    if words.length < needed then
      warn (name ++ ": missing operand after " ++ quoted (words.getLastD ""))
      warn (if deletes then "Two strings must be given when both deleting and squeezing repeats."
        else "Two strings must be given when translating.")
      hint name
      quit 1
    if (if deletes && !squeezes then 1 else 2) < words.length then
      warn (name ++ ": extra operand " ++ quoted (words.getD (if deletes && !squeezes then 1 else 2) ""))
      if deletes && !squeezes then warn "Only one string may be given when deleting without squeezing repeats."
      hint name
      quit 1
    let parse := fun (text : String) => do
      match setParts (text.length + 1) text.toList with
      | .ok parts => pure parts
      | .error fault => abort name fault 1
    let first := filled 0 (← parse (words.headD ""))
    let secondParts ← parse (words.getD 1 "")
    let isTurned := x.hasAny ['c', 'C']
    let source := if isTurned then ((List.range 256).map UInt8.ofNat).filter (!first.contains ·) else first
    let second := filled source.length secondParts
    let isFirst := fun (b : UInt8) => first.contains b != isTurned
    let replaces := !deletes && words.length = 2
    if replaces && second.isEmpty && !x.has 't' then
      abort name "when not truncating set1, string2 must be non-empty" 1
    let filler := second.getLast?.getD 0
    let table : Array UInt8 := (List.range 256).toArray.map fun code =>
      let b := UInt8.ofNat code
      match source.reverse.idxOf? b with
      | some i =>
        let place := source.length - 1 - i
        if x.has 't' then (second[place]?).getD b else (second[place]?).getD filler
      | none => b
    let isSqueezed := fun (b : UInt8) => if words.length = 2 then second.contains b else isFirst b
    let step := fun (last : Option UInt8) (bytes : Bytes) =>
      let kept := if deletes then bytes.filter (!isFirst ·) else bytes
      let replaced := if replaces then kept.map fun b => table.getD b.toNat b else kept
      if squeezes then
        match last with
        | some b => (squeeze isSqueezed (b :: replaced)).drop 1
        | none => squeeze isSqueezed replaced
      else replaced
    match ← Tool.source "-" with
    | .ok file => replacing file step patience none
    | .error fault => refuse name "-" "" fault

end Fleet.Shell.Tool
