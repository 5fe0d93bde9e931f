/-
JSON values.

They carry the side data of types and the interchange form of manifests and
configurations.  The members of an object are listed; where a reader looks for a
key, the first member of that key counts.
-/

namespace EntityModel

/-- A JSON value. -/
inductive Json where
  | null
  | bool (value : Bool)
  | integer (value : Int)
  /-- The number `mantissa / 10 ^ exponent`, written with a fraction or an exponent. -/
  | decimal (mantissa : Int) (exponent : Nat)
  | string (value : String)
  | array (items : List Json)
  | object (members : List (String × Json))
  deriving Inhabited

end EntityModel
