/-! Schemas of algebraic data types: imports, plain type declarations, and sum types whose cases hold
a type or a record. A type is given by its text. -/
namespace LoxLang

namespace Schema

structure Field where
  name : String
  kind : String
deriving DecidableEq, Inhabited, Repr

inductive Payload where
  | type (kind : String)
  | record (fields : List Field)
deriving DecidableEq, Inhabited, Repr

structure Case where
  name : String
  payload : Payload
deriving DecidableEq, Inhabited, Repr

/-- What a declared name stands for: another type, or a choice between cases. -/
inductive Body where
  | plain (kind : String)
  | sum (cases : List Case)
deriving DecidableEq, Inhabited, Repr

structure Declaration where
  name : String
  body : Body
deriving DecidableEq, Inhabited, Repr

namespace Declaration

def cases (d : Declaration) : List Case :=
  match d.body with
  | .plain _ => []
  | .sum cases => cases

def isSum (d : Declaration) : Bool :=
  match d.body with
  | .plain _ => false
  | .sum _ => true

end Declaration
end Schema

structure Schema where
  imports : List String := []
  declarations : List Schema.Declaration := []
deriving DecidableEq, Inhabited, Repr

namespace Schema

/-- Some declaration makes the name that of a sum type. -/
def isSumType (s : Schema) (name : String) : Bool :=
  s.declarations.any fun d => d.name == name && d.isSum

end Schema
end LoxLang
