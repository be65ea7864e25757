/-!
# Signals

Signals by number, with their names, with the words for a process that one has ended, and with what they do to a
process that does not mind them.
-/

namespace Fleet.Shell.Signal

def greatest : Nat := 64

/-- The names and the words of the first signals, in the order of their numbers from 1 on.  One number has no
name. -/
def table : List (String × String) :=
  [("HUP", "Hangup"), ("INT", "Interrupt"), ("QUIT", "Quit"), ("ILL", "Illegal instruction"),
    ("TRAP", "Trace/breakpoint trap"), ("ABRT", "Aborted"), ("BUS", "Bus error"), ("FPE", "Floating point exception"),
    ("KILL", "Killed"), ("USR1", "User defined signal 1"), ("SEGV", "Segmentation fault"),
    ("USR2", "User defined signal 2"), ("PIPE", "Broken pipe"), ("ALRM", "Alarm clock"), ("TERM", "Terminated"),
    ("16", "Stack fault"), ("CHLD", "Child exited"), ("CONT", "Continued"), ("STOP", "Stopped (signal)"),
    ("TSTP", "Stopped"), ("TTIN", "Stopped (tty input)"), ("TTOU", "Stopped (tty output)"),
    ("URG", "Urgent I/O condition"), ("XCPU", "CPU time limit exceeded"), ("XFSZ", "File size limit exceeded"),
    ("VTALRM", "Virtual timer expired"), ("PROF", "Profiling timer expired"), ("WINCH", "Window changed"),
    ("IO", "I/O possible"), ("PWR", "Power failure"), ("SYS", "Bad system call")]

/-- The first of the signals without names of their own. -/
def firstRealTime : Nat := 34

/-- The last of the signals that are counted from the first one on. -/
def lastCounted : Nat := 49

/-- The name of a signal; the number 0 is that of the end of a shell. -/
def name (number : Nat) : String :=
  if number = 0 then "EXIT"
  else
    match table[number - 1]? with
    | some entry => entry.1
    | none =>
      if number < firstRealTime then toString number
      else if number = firstRealTime then "RTMIN"
      else if number ≤ lastCounted then "RTMIN+" ++ toString (number - firstRealTime)
      else if number < greatest then "RTMAX-" ++ toString (greatest - number)
      else "RTMAX"

/-- The words for a process that a signal has ended. -/
def description (number : Nat) : String :=
  match table[number - 1]? with
  | some entry => entry.2
  | none =>
    if number < firstRealTime then "Unknown signal " ++ toString number
    else "Real-time signal " ++ toString (number - firstRealTime)

/-- The number that a word of digits is, if there is a signal of it. -/
def ofDigits? (word : String) : Option Nat :=
  if word ≠ "" ∧ word.toList.all Char.isDigit then
    word.toNat?.filter (· ≤ greatest)
  else none

/-- The number of a signal that is named by its number or by its name. -/
def ofName? (word : String) : Option Nat :=
  match ofDigits? word with
  | some number => some number
  | none => ((List.range (greatest + 1)).find? fun number => name number == word.toUpper)

def kill : Nat := 9

/-- The signal to a process that writes where nobody reads. -/
def brokenPipe : Nat := 13

/-- The signals that processes can neither catch nor leave unheard. -/
def isSovereign (number : Nat) : Bool := number == 9 || number == 19

/-- The signals that do not end a process which does not mind them. -/
def isHarmless (number : Nat) : Bool := number ∈ [0, 17, 18, 19, 20, 21, 22, 23, 28]

/-- The signals whose effect on a process is not told. -/
def isSilent (number : Nat) : Bool := number == 2 || number == brokenPipe

end Fleet.Shell.Signal
