/-!
# TOML documents

What a document says once it has been read: a table of values by key. Of
fractional numbers and of dates no more is kept than that they are such.
-/

namespace ChargeLink

/-- A value of a document. -/
inductive Toml where
  | text (s : String)
  | int (n : Int)
  | real
  | flag (b : Bool)
  | moment
  | array (items : List Toml)
  | table (entries : List (String × Toml))

namespace Toml

/-- The value of a key among entries. -/
def lookup (key : String) : List (String × Toml) → Option Toml
  | [] => none
  | (k, v) :: r => if k == key then some v else lookup key r

end Toml

end ChargeLink
