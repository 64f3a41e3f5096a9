import Formulary.Name.Identifier
import Formulary.Name.Substitution

/-!
# The registry of names

A `Registry` maps display names to their identifiers in order of registration. Names that records
declare are also kept by identifier, so that two names which fall together can be reported as a
`Collision`; names that are only found in formula text are mapped but never collide.
-/

set_option autoImplicit false
set_option relaxedAutoImplicit false

namespace Formulary.Name

/-- Several declared names with one identifier. -/
structure Collision where
  identifier : String
  names : List String
  deriving Repr, DecidableEq

/-- Names with their identifiers, and the declared names by identifier, each in order of
registration. -/
structure Registry where
  entries : List (String × String)
  declared : List Collision
  deriving Repr

namespace Registry

/-- The registry without names. -/
def empty : Registry := ⟨[], []⟩

/-- Whether a name can be mapped at all: it is not blank and its identifier is not empty. -/
def isMappable (name : String) : Bool :=
  !isBlankName name && !(identifier name).isEmpty

/-- The identifier registered for a name. -/
def get? (registry : Registry) (name : String) : Option String :=
  registry.entries.lookup name

/-- Registers a name, whether or not it is declared. -/
def addEntry (registry : Registry) (name : String) : Registry :=
  if (registry.entries.any fun entry ↦ entry.1 == name) then registry
  else { registry with entries := registry.entries ++ [(name, identifier name)] }

/-- Adds a declared name to those that share its identifier. -/
def addDeclared (identifier name : String) : List Collision → List Collision
  | [] => [⟨identifier, [name]⟩]
  | group :: rest =>
    if group.identifier = identifier then
      (if group.names.contains name then group
        else { group with names := group.names ++ [name] }) :: rest
    else group :: addDeclared identifier name rest

/-- Registers a name found in formula text. -/
def discover (registry : Registry) (name : String) : Registry :=
  if isMappable name then registry.addEntry name else registry

/-- Registers the name of a record. -/
def declare (registry : Registry) (name : String) : Registry :=
  if isMappable name then
    let added := registry.addEntry name
    { added with declared := addDeclared (identifier name) name added.declared }
  else registry

/-- The identifiers that several declared names share, in the order of their first declaration. -/
def collisions (registry : Registry) : List Collision :=
  registry.declared.filter fun group ↦ 1 < group.names.length

/-- The substitution of every registered name by its identifier. -/
def substitution (registry : Registry) : Substitution :=
  .ofPairs registry.entries

/-- A formula with every registered name replaced by its identifier. -/
def withIdentifiers (registry : Registry) (formula : String) : String :=
  registry.substitution.apply formula

end Registry

end Formulary.Name
