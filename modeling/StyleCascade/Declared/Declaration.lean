import StyleCascade.Declared.Shorthand
import StyleCascade.Declared.PropertySet

namespace StyleCascade

/-- Why a declaration sets nothing. -/
inductive DeclarationFault
  | unknownProperty (name : String)
  | invalidValue (name value : String)
  deriving DecidableEq, Repr

/-- The wording of a fault. -/
def DeclarationFault.message : DeclarationFault → String
  | .unknownProperty name => "unknown property: " ++ name
  | .invalidValue name value => "invalid value for " ++ name ++ ": " ++ value

/-- A declaration as it is written. The name is lowercase. -/
structure Declaration where
  name : String
  value : String
  important : Bool
  deriving DecidableEq, Repr

namespace Declaration

/-- The only component is the word `inherit`, in any letter case. -/
def inheritsAll (parts : List String) : Bool :=
  match parts with
  | [only] => Ascii.sameLetters only "inherit"
  | _ => false

/-- The properties that a name and a value text set. A value without any component is invalid
before the name is looked at, unless the name is that of a property. -/
def expand (name value : String) : Except DeclarationFault Longhands :=
  match Property.ofName? name with
  | some property => .ok [(property, Value.ofText value)]
  | none =>
    match Component.split value with
    | [] => .error (.invalidValue name value)
    | parts =>
      match Shorthand.ofName? name with
      | none => .error (.unknownProperty name)
      | some shorthand =>
        if inheritsAll parts then .ok (shorthand.covered.map (fun p => (p, Value.inherit)))
        else
          match shorthand.expand? parts with
          | some longhands => .ok longhands
          | none => .error (.invalidValue name value)

/-- The properties that a declaration sets. -/
def longhands (declaration : Declaration) : Except DeclarationFault Longhands :=
  expand declaration.name declaration.value

end Declaration

/-- The property sets of a block: what it declares normally, and what it declares important. -/
structure DeclaredSets where
  normal : PropertySet
  important : PropertySet

namespace DeclaredSets

/-- Nothing is declared. -/
def empty : DeclaredSets :=
  ⟨.empty, .empty⟩

/-- Adds a declaration, which replaces earlier values of its properties. One that sets nothing is
passed over. -/
def declare (sets : DeclaredSets) (declaration : Declaration) : DeclaredSets :=
  match declaration.longhands with
  | .error _ => sets
  | .ok longhands =>
    if declaration.important then { sets with important := sets.important.insertAll longhands }
    else { sets with normal := sets.normal.insertAll longhands }

/-- The sets of a list of declarations. -/
def ofList (declarations : List Declaration) : DeclaredSets :=
  declarations.foldl declare empty

end DeclaredSets

end StyleCascade
