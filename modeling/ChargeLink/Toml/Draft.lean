import ChargeLink.Toml.Value

/-!
# Building a document

A document is built line by line. A table may be opened by its header once; one
that was only mentioned on the way to another may still be opened, unless dotted
keys made it. Dotted keys add only to tables that dotted keys made. A header in
double brackets adds a table to an array of tables, and headers and keys below
it go to the last one. Anything else would define a key twice and is refused.
-/

namespace ChargeLink.Toml

/-- An entry of a document that is being built. -/
inductive Draft where
  /-- A value that nothing can be added to. -/
  | value (v : Toml)
  /-- A table: `implicit` if only mentioned so far, `dotted` if made by dotted keys. -/
  | table (implicit dotted : Bool) (entries : List (String × Draft))
  /-- An array of tables, each of them opened by a header. -/
  | tables (rows : List (List (String × Draft)))

/-- The entries of a table that is being built. -/
abbrev Entries := List (String × Draft)

namespace Draft

mutual
/-- The finished value. -/
def finish : Draft → Toml
  | value v => v
  | table _ _ entries => .table (finishEntries entries)
  | tables rows => .array (finishRows rows)

/-- The finished entries. -/
def finishEntries : List (String × Draft) → List (String × Toml)
  | [] => []
  | (k, d) :: r => (k, finish d) :: finishEntries r

/-- The finished tables of an array. -/
def finishRows : List (List (String × Draft)) → List Toml
  | [] => []
  | entries :: r => .table (finishEntries entries) :: finishRows r
end

/-- The entry of a key. -/
def lookup (key : String) : Entries → Option Draft
  | [] => none
  | (k, d) :: r => if k == key then some d else lookup key r

/-- Sets the entry of a key: in its place if it has one, else at the end. -/
def put (key : String) (d : Draft) : Entries → Entries
  | [] => [(key, d)]
  | (k, e) :: r => if k == key then (k, d) :: r else (k, e) :: put key d r

@[simp]
theorem lookup_put_self (key : String) (d : Draft) (es : Entries) :
    lookup key (put key d es) = some d := by
  induction es with
  | nil => simp [put, lookup]
  | cons e r ih =>
    by_cases h : e.1 = key <;> simp [put, lookup, h, ih]

theorem lookup_put_of_ne {key other : String} (h : other ≠ key) (d : Draft) (es : Entries) :
    lookup other (put key d es) = lookup other es := by
  have hne : (key == other) = false := by simpa using fun e => h e.symm
  induction es with
  | nil => simp only [put, lookup, hne, Bool.false_eq_true, if_false]
  | cons e r ih =>
    simp only [put]
    split
    · rename_i hk
      simp only [lookup, eq_of_beq hk, hne, Bool.false_eq_true, if_false]
    · simp only [lookup, ih]

/-- Changes the last of some rows. -/
def onLast (f : Entries → Option Entries) : List Entries → Option (List Entries)
  | [] => none
  | [row] => (f row).map fun row => [row]
  | row :: rest => (onLast f rest).map (row :: ·)

/-- Changes the table at the end of a path. Tables missing on the way are made. `byKeys` tells
whether the path is of dotted keys, which cannot pass a table that a header opened; `f` learns
whether dotted keys made the table it changes. -/
def update (byKeys : Bool) (f : Bool → Entries → Option Entries) :
    List String → Bool → Entries → Option Entries
  | [], dotted, entries => f dotted entries
  | key :: path, _, entries =>
    match lookup key entries with
    | none =>
      (update byKeys f path byKeys []).map fun inner => put key (.table true byKeys inner) entries
    | some (.value _) => none
    | some (.table implicit dotted inner) =>
      if byKeys && !implicit then none
      else
        (update byKeys f path dotted inner).map fun inner =>
          put key (.table implicit dotted inner) entries
    | some (.tables rows) =>
      (onLast (update byKeys f path false) rows).map fun rows => put key (.tables rows) entries

/-- Adds a value under dotted keys to a table. -/
def addValue (path : List String) (key : String) (v : Toml) (entries : Entries) :
    Option Entries :=
  update true (fun dotted inner =>
    if dotted == path.isEmpty then none
    else
      match lookup key inner with
      | some _ => none
      | none => some (put key (.value v) inner)) path false entries

/-- Opens a table by its header. -/
def openTable (path : List String) (key : String) (root : Entries) : Option Entries :=
  update false (fun _ inner =>
    match lookup key inner with
    | none => some (put key (.table false false []) inner)
    | some (.table true false entries) => some (put key (.table false false entries) inner)
    | some _ => none) path false root

/-- Adds a table to an array of tables by its header. -/
def openRow (path : List String) (key : String) (root : Entries) : Option Entries :=
  update false (fun _ inner =>
    match lookup key inner with
    | none => some (put key (.tables [[]]) inner)
    | some (.tables rows) => some (put key (.tables (rows ++ [[]])) inner)
    | some _ => none) path false root

/-- Adds a value below the header that was opened last. -/
def addBelow (header path : List String) (key : String) (v : Toml) (root : Entries) :
    Option Entries :=
  update false (fun _ inner => addValue path key v inner) header false root

end Draft

end ChargeLink.Toml
