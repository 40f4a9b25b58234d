import Blockwork.Run.Value

/-!
# Scopes and environments

An environment is a stack of scopes whose lowest one, the global scope, is always there. A variable
is declared in the innermost scope, and read and assigned in the innermost scope that declares it.
-/

namespace Blockwork.Run

/-- The variables of one scope, each name once. -/
abbrev Scope := List (String × Value)

namespace Scope

/-- The value of a variable of this scope. -/
def get? (scope : Scope) (name : String) : Option Value :=
  scope.lookup name

/-- The scope with a value for the name, in place of the one it may have had. -/
def put : Scope → String → Value → Scope
  | [], name, value => [(name, value)]
  | (n, v) :: rest, name, value =>
    if n = name then (n, value) :: rest else (n, v) :: put rest name value

end Scope

/-- The scopes in use. -/
structure Environment where
  /-- The scopes above the global one, innermost first. -/
  inner : List Scope
  global : Scope
deriving DecidableEq

namespace Environment

/-- Only the global scope, and nothing in it. -/
def empty : Environment :=
  ⟨[], []⟩

/-- All scopes, innermost first. -/
def scopes (env : Environment) : List Scope :=
  env.inner ++ [env.global]

/-- How many scopes there are. -/
def depth (env : Environment) : Nat :=
  env.inner.length + 1

/-- With a new innermost scope. -/
def push (env : Environment) : Environment :=
  { env with inner := [] :: env.inner }

/-- The innermost scope and the environment without it. The global scope stays. -/
def pop? (env : Environment) : Option (Scope × Environment) :=
  match env.inner with
  | [] => none
  | scope :: rest => some (scope, { env with inner := rest })

/-- Without the innermost scope, unless it is the global one. -/
def pop (env : Environment) : Environment :=
  { env with inner := env.inner.tail }

/-- Declare a variable in the innermost scope. -/
def declare (env : Environment) (name : String) (value : Value) : Environment :=
  match env.inner with
  | [] => { env with global := env.global.put name value }
  | scope :: rest => { env with inner := scope.put name value :: rest }

/-- The value of a variable in the innermost scope that declares it. -/
def get? (env : Environment) (name : String) : Option Value :=
  env.scopes.findSome? (·.get? name)

/-- Assign in the first of the scopes that declares the variable. -/
def assignIn? : List Scope → String → Value → Option (List Scope)
  | [], _, _ => none
  | scope :: rest, name, value =>
    if (scope.get? name).isSome then some (scope.put name value :: rest)
    else (assignIn? rest name value).map (scope :: ·)

/-- Assign to a variable; nothing if no scope declares it. -/
def assign? (env : Environment) (name : String) (value : Value) : Option Environment :=
  match assignIn? env.inner name value with
  | some inner => some { env with inner }
  | none =>
    if (env.global.get? name).isSome then
      some { env with global := env.global.put name value }
    else none

end Environment

end Blockwork.Run
