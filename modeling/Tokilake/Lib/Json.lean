import Mathlib.Data.Nat.Notation

/-! # JSON values

The values of JSON documents, of the numbers only the naturals.  How a library reads or writes the
text of a document is a parameter where it matters. -/

namespace Tokilake.Lib.Json

inductive Value
  | null
  | bool (b : Bool)
  | num (n : ℕ)
  | str (s : String)
  | arr (elems : List Value)
  | obj (members : List (String × Value))

end Tokilake.Lib.Json
