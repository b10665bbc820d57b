import DocForms.Registry.Minting

/-! Operations on a registry together with its supply of identifiers. -/
namespace DocForms

/-- A registry with its supply of identifiers. -/
structure Workspace where
  registry : Registry := {}
  ids : Ids := {}
deriving DecidableEq

/-- An operation on a registry whose steps stay done when a later one fails. -/
abbrev Building := ExceptT Fault (StateM Workspace)

namespace Building
variable {α : Type}

/-- A computation that changes nothing. -/
def plain (e : Except Fault α) : Building α := ExceptT.mk (pure e)

/-- A computation on the registry that changes nothing. -/
def read (f : Registry → Except Fault α) : Building α := do plain (f (← get).registry)

/-- A change of the registry. -/
def change (f : Registry → Except Fault (Registry × α)) : Building α := do
  let w ← get
  let (registry, a) ← plain (f w.registry)
  set { w with registry }
  return a

/-- A change of the registry that may ask for identifiers; those handed out stay so. -/
def mint (f : Registry → Minting (Registry × α)) : Building α := do
  let w ← get
  let (res, ids) := (f w.registry).run.run w.ids
  set { w with ids }
  change fun _ => res

/-- The outcome of an operation, unless it is a misuse. -/
def attempt (b : Building α) : Building (Except Refusal α) :=
  tryCatch (do return .ok (← b)) fun
    | .refused r => return .error r
    | .misuse m => throw (.misuse m)

end Building
end DocForms
