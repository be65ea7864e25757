import Fleet.Shell.Action
import Fleet.Shell.Numeral
import Fleet.Shell.Token

/-!
# Setting variables

Variables get values as long as they may change.  Some of them mean something to the shell: a new search path makes
it forget where programs are, and the place of the next option begins anew.
-/

namespace Fleet.Shell

/-- The fault that a variable must not change. -/
def refuseChange {α : Type} (name : String) : Action α := blame (name ++ ": is read only")

def heedVariable (name value : String) : Action Unit :=
  if name = "PATH" then change fun x => { x with places := [] }
  else if name = "OPTIND" then
    match Numeral.count? value with
    | some n => change fun x => { x with nextOption := max 1 n, optionOffset := none }
    | none => blame ("Illegal number: " ++ value)
  else pure ()

def setVariable (name value : String) : Action Unit := do
  if !isName name.toList then blame (name ++ ": bad variable name")
  if (← current).isReadOnly name then refuseChange name
  change (·.assign name value)
  heedVariable name value

/-- A variable has no value any more. -/
def unsetVariable (name : String) : Action Unit := do
  if !isName name.toList then blame (name ++ ": bad variable name")
  if (← current).isReadOnly name then refuseChange name
  change (·.unbind name)
  heedVariable name ""

/-- A variable is what it was before, if it was local to a function until now. -/
def restoreVariable (name : String) (before : Option Variable) : Action Unit := do
  change (·.restore name before)
  if let some value := before.bind (·.value) then heedVariable name value
  else if name = "PATH" then heedVariable name ""

/-- What a variable is now is kept until the function ends. -/
def keepVariable (name : String) : Action Unit := change fun x =>
  match x.scopes with
  | scope :: more =>
    if scope.any (·.1 = name) then x else { x with scopes := ((name, x.bindings.lookup name) :: scope) :: more }
  | [] => x

def withLocals {α : Type} (a : Action α) : Action α := do
  change fun x => { x with scopes := [] :: x.scopes }
  ensuring a do
    let x ← current
    for (name, before) in x.scopes.head?.getD [] do restoreVariable name before
    change fun x => { x with scopes := x.scopes.tail }

end Fleet.Shell
