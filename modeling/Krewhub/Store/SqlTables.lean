import Krewhub.Base.Coro

/-!
# Tables with columns

A database as the migrations see it: tables with their columns and constraints, rows, indexes, and the statements
that make and unmake them. A statement of `executescript` is on the disk as soon as it has executed, unless the
script has begun a transaction; the `UPDATE` and `INSERT` of an `execute` open one, which stays open until the next
commit.
-/

namespace Krewhub

namespace Schema

/-! ### Tables -/

/-- A column with `CHECK(name IN (…))` and `REFERENCES table(column)`. -/
structure ColumnDef where
  name : String
  notNull : Bool := false
  default : Option String := none
  allowed : Option (List String) := none
  references : Option (String × String) := none
  deriving DecidableEq, Repr

/-- The columns, the primary key, and the sets of columns that are declared unique. -/
structure Shape where
  columns : List ColumnDef
  primaryKey : List String
  unique : List (List String) := []
  deriving DecidableEq, Repr

/-- The value of every column as text; `NULL` where there is none. -/
abbrev Row := String → Option String

/-- The row with a value put into a column. -/
def Row.set (row : Row) (column : String) (value : Option String) : Row := Function.update row column value

namespace Shape

variable (shape : Shape)

def names : List String := shape.columns.map (·.name)

/-- The literal is in the text of the `CREATE TABLE`. -/
def mentions (literal : String) : Bool :=
  shape.columns.any fun c => c.allowed.any (·.contains literal) || c.default == some literal

def defaultOf (column : String) : Option String := (shape.columns.find? (·.name == column)).bind (·.default)

/-- The column is in a key or a reference. -/
def usesColumn (column : String) : Bool :=
  (shape.primaryKey :: shape.unique).any (·.contains column) ||
    shape.columns.any fun c => c.name == column && c.references.isSome

def restrict (row : Row) : Row := fun c => if c ∈ shape.names then row c else none

end Shape

/-- A table; a row has values in its columns only. -/
structure SqlTable extends Shape where
  rows : List Row
  within : ∀ row ∈ rows, ∀ c, row c ≠ none → c ∈ toShape.names

/-- The table of the rows, cut down to the columns. -/
def Shape.holding (shape : Shape) (rows : List Row) : SqlTable where
  toShape := shape
  rows := rows.map shape.restrict
  within := by
    intro row hrow c hc
    obtain ⟨row', -, rfl⟩ := List.mem_map.mp hrow
    by_contra hnot
    exact hc (if_neg hnot)

structure Index where
  name : String
  table : String
  columns : List String
  deriving DecidableEq, Repr

structure Database where
  tables : String → Option SqlTable
  indexes : List Index := []

namespace Database

def put (db : Database) (name : String) (t : SqlTable) : Database :=
  { db with tables := Function.update db.tables name (some t) }

def drop (db : Database) (name : String) : Database where
  tables := Function.update db.tables name none
  indexes := db.indexes.filter (·.table != name)

def rename (db : Database) (name newName : String) (t : SqlTable) : Database where
  tables := Function.update (Function.update db.tables name none) newName (some t)
  indexes := db.indexes.map fun index => if index.table = name then { index with table := newName } else index

/-- The row that a reference names is there. -/
def hasReferred (db : Database) (reference : String × String) (value : String) : Bool :=
  (db.tables reference.1).any fun t => t.rows.any fun row => row reference.2 == some value

/-- The constraints that a column puts on its value. -/
def admitsValue (db : Database) (foreignKeys : Bool) (c : ColumnDef) : Option String → Bool
  | none => !c.notNull
  | some value => c.allowed.all (·.contains value) && (!foreignKeys || c.references.all (db.hasReferred · value))

/-- No two rows have the same values in a key; a `NULL` is like no other. -/
def distinct (rows : List Row) (columns : List String) : Bool :=
  decide (((rows.map fun row => columns.map row).filter fun values => values.all (·.isSome)).Nodup)

/-- The constraints of a table. -/
def admits (db : Database) (foreignKeys : Bool) (t : SqlTable) : Bool :=
  t.rows.all (fun row => t.columns.all fun c => db.admitsValue foreignKeys c (row c.name)) &&
    (t.primaryKey :: t.unique).all (distinct t.rows)

end Database

/-! ### Statements -/

inductive SqlError where
  | operationalError
  | integrityError
  deriving DecidableEq, Repr

/-- What is selected for a column. -/
inductive SelectExpr where
  | column (name : String)
  | value (text : String)
  | coalesce (name text : String)
  deriving DecidableEq, Repr

namespace SelectExpr

def eval : SelectExpr → Row → Option String
  | .column name, row => row name
  | .value text, _ => some text
  | .coalesce name text, row => some ((row name).getD text)

def reads : SelectExpr → Option String
  | .column name | .coalesce name _ => some name
  | .value _ => none

end SelectExpr

inductive Statement where
  | createTable (name : String) (shape : Shape)
  | createTableIfNotExists (name : String) (shape : Shape)
  | createIndexIfNotExists (index : Index)
  | dropTable (name : String)
  | dropTableIfExists (name : String)
  | renameTable (name newName : String)
  | addColumn (table : String) (column : ColumnDef)
  | dropColumn (table column : String)
  | insertSelect (target : String) (columns : List (String × SelectExpr)) (source : String)
  | update (table : String) (reads : List (String × String)) (set : Database → Row → Row)
  | insertOrIgnore (table : String) (values : List (String × Option String))

namespace Statement

/-- The row that is inserted for the values of some columns. -/
def inserted (shape : Shape) (values : List (String × Option String)) : Row := fun c =>
  match values.lookup c with
  | some value => value
  | none => shape.defaultOf c

/-- The row that is inserted for one that is selected. -/
def selected (shape : Shape) (columns : List (String × SelectExpr)) (row : Row) : Row := fun c =>
  match columns.lookup c with
  | some expr => expr.eval row
  | none => shape.defaultOf c

/-- A statement on the database, with the foreign keys enforced or not. -/
def apply (foreignKeys : Bool) : Statement → Database → Except SqlError Database
  | .createTable name shape, db =>
    if (db.tables name).isSome then .error .operationalError else .ok (db.put name (shape.holding []))
  | .createTableIfNotExists name shape, db =>
    if (db.tables name).isSome then .ok db else .ok (db.put name (shape.holding []))
  | .createIndexIfNotExists index, db =>
    if db.indexes.any (·.name == index.name) then .ok db
    else if (db.tables index.table).any fun t => index.columns.all (· ∈ t.names) then
      .ok { db with indexes := db.indexes ++ [index] }
    else .error .operationalError
  | .dropTable name, db => if (db.tables name).isSome then .ok (db.drop name) else .error .operationalError
  | .dropTableIfExists name, db => .ok (db.drop name)
  | .renameTable name newName, db =>
    match db.tables name with
    | none => .error .operationalError
    | some t => if (db.tables newName).isSome then .error .operationalError else .ok (db.rename name newName t)
  | .addColumn table column, db =>
    match db.tables table with
    | none => .error .operationalError
    | some t =>
      if column.name ∈ t.names then .error .operationalError
      else .ok (db.put table (Shape.holding { t.toShape with columns := t.columns ++ [column] }
        (t.rows.map fun row => Row.set row column.name column.default)))
  | .dropColumn table column, db =>
    match db.tables table with
    | none => .error .operationalError
    | some t =>
      if column ∉ t.names ∨ t.usesColumn column ∨
          db.indexes.any (fun i => i.table == table && i.columns.contains column) then
        .error .operationalError
      else .ok (db.put table (Shape.holding { t.toShape with columns := t.columns.filter (·.name ≠ column) } t.rows))
  | .insertSelect target columns source, db =>
    match db.tables source, db.tables target with
    | some t, some t' =>
      if columns.all fun c => t'.names.contains c.1 && c.2.reads.all (t.names.contains ·) then
        let filled := t'.toShape.holding (t'.rows ++ t.rows.map (selected t'.toShape columns))
        if db.admits foreignKeys filled then .ok (db.put target filled) else .error .integrityError
      else .error .operationalError
    | _, _ => .error .operationalError
  | .update table reads set, db =>
    match db.tables table with
    | none => .error .operationalError
    | some t =>
      if reads.all fun r => (db.tables r.1).any fun t => t.names.contains r.2 then
        let updated := t.toShape.holding (t.rows.map (set db))
        if db.admits foreignKeys updated then .ok (db.put table updated) else .error .integrityError
      else .error .operationalError
  | .insertOrIgnore table values, db =>
    match db.tables table with
    | none => .error .operationalError
    | some t =>
      let filled := t.toShape.holding (t.rows ++ [inserted t.toShape values])
      if db.admits foreignKeys filled then .ok (db.put table filled) else .ok db

/-- Before these an `execute` begins a transaction. -/
def opens : Statement → Bool
  | .update .. | .insertOrIgnore .. => true
  | _ => false

end Statement

/-! ### The file -/

/-- The database as the connection shows it and as it is on the disk, and what the connection is set to. -/
structure DatabaseFile where
  live : Database
  disk : Database
  inTransaction : Bool := false
  foreignKeys : Bool := true

inductive SchemaOp where
  | query
  | foreignKeys (on : Bool)
  | begin
  | commit
  | run (stmt : Statement)

namespace SchemaOp

def exec : SchemaOp → DatabaseFile → DatabaseFile
  | .query, f => f
  | .foreignKeys on, f => if f.inTransaction then f else { f with foreignKeys := on }
  | .begin, f => { f with inTransaction := true }
  | .commit, f => { f with disk := f.live, inTransaction := false }
  | .run stmt, f =>
    let inTransaction := f.inTransaction || stmt.opens
    match stmt.apply f.foreignKeys f.live with
    | .error _ => { f with inTransaction }
    | .ok db => { f with live := db, disk := if inTransaction then f.disk else db, inTransaction }

/-- The exception that awaiting it raises. -/
def error? : SchemaOp → DatabaseFile → Option SqlError
  | .run stmt, f =>
    match stmt.apply f.foreignKeys f.live with
    | .error e => some e
    | .ok _ => none
  | _, _ => none

end SchemaOp

abbrev SchemaM := Coro DatabaseFile SchemaOp SqlError

def query {α : Type} (read : Database → α) : SchemaM α := .perform .query fun f => read f.live

/-- A statement with its exception as a value. -/
def tryStatement (op : SchemaOp) : SchemaM (Option SqlError) := .perform op op.error?

def raiseIf : Option SqlError → SchemaM Unit
  | none => return
  | some e => .raise e

def statement (op : SchemaOp) : SchemaM Unit := do
  raiseIf (← tryStatement op)

def execute (stmt : Statement) : SchemaM Unit := statement (.run stmt)

def statements : List SchemaOp → SchemaM Unit
  | [] => return
  | op :: ops => do
    statement op
    statements ops

/-- `executescript` commits first. -/
def executescript (ops : List SchemaOp) : SchemaM Unit := do
  .perform .commit fun _ => ()
  statements ops

end Schema

end Krewhub
