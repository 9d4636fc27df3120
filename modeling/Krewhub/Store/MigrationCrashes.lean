import Krewhub.Base.CrashPoints
import Krewhub.Store.SchemaMigrations

/-!
# Boots that do not survive

A table that is rebuilt is without its rows for a moment: between the statement that drops it or renames it away and
the one that puts its rows back under its name. A boot that dies there leaves a file in which the next boot finds no
table, or a new one, and so nothing to rebuild. Anywhere else the rows are there, with what they had in the columns
that all rebuilds of the table carry over, and the next boot goes on from them.
-/

namespace Krewhub

namespace Schema

/-! ### What is carried over -/

/-- The tables that migrations rebuild. -/
def rebuiltTables : List String :=
  ["bundles", "tasks", "events", "task_links", "cookbook_shares", "sandboxes", "watch_log"]

/-- The columns of `events` that all of its rebuilds copy. -/
def carriedEventColumns : List String :=
  ["id", "bundle_id", "task_id", "type", "actor_id", "actor_type", "body", "facts", "code_refs", "created_at",
    "expires_at"]

/-- Every rebuild of the table copies the column. -/
def carries (table column : String) : Bool :=
  if table = "events" then carriedEventColumns.contains column
  else if table = "sandboxes" then sandboxesShape.names.contains column
  else if table = "task_links" then taskLinksShape.names.contains column
  else if table = "cookbook_shares" then cookbookSharesShape.names.contains column
  else column != "recipe_id"

/-- The value up to the statuses that are folded into two. -/
def folded (table column value : String) : String :=
  if table = "bundles" ∧ column = "status" then
    if value ∈ ["claimed", "cooked", "blocked"] then "open"
    else if value ∈ ["cancelled", "digested", "rejected"] then "closed"
    else value
  else value

/-- The second row has the values of the first in the columns that are carried over. -/
def Carry (table : String) (row row' : Row) : Prop :=
  ∀ c value, carries table c = true → row c = some value →
    ∃ value' ∈ row' c, folded table c value' = folded table c value

variable {T : String} {row row' row'' : Row}

theorem Carry.refl (row : Row) : Carry T row row := fun _ value _ h => ⟨value, h, rfl⟩

theorem Carry.trans (h : Carry T row row') (h' : Carry T row' row'') : Carry T row row'' := by
  intro c value hc hrow
  obtain ⟨value', hrow', hfolded⟩ := h c value hc hrow
  obtain ⟨value'', hrow'', hfolded'⟩ := h' c value' hc hrow'
  exact ⟨value'', hrow'', hfolded'.trans hfolded⟩

theorem Carry.restrict {shape : Shape} (h : Carry T row row')
    (hnames : ∀ c value, carries T c = true → row c = some value → c ∈ shape.names) :
    Carry T row (shape.restrict row') := by
  intro c value hc hrow
  rw [Shape.restrict, if_pos (hnames c value hc hrow)]
  exact h c value hc hrow

/-- A column without a value is given one. -/
theorem Carry.set {c : String} (h : row c = none) (value : Option String) : Carry T row (row.set c value) := by
  intro c' value' _ hrow
  have hne : c' ≠ c := by
    rintro rfl
    rw [h] at hrow
    cases hrow
  exact ⟨value', by rw [Row.set, Function.update_of_ne hne]; exact hrow, rfl⟩

theorem mem_names {t : SqlTable} (hrow : row ∈ t.rows) {c value : String} (hc : row c = some value) : c ∈ t.names :=
  t.within row hrow c (by rw [hc]; exact Option.some_ne_none value)

/-! ### What is claimed of a table -/

/-- What is claimed of the rows of a table, and whether it is to be there; rows that carry over what these had will
do as well. -/
structure Claim (T : String) where
  there : Prop
  rows : List Row → Prop
  carried : ∀ {rs : List Row} {f : Row → Row}, (∀ r ∈ rs, Carry T r (f r)) → rows rs → rows (rs.map f)
  vacant : ¬ there → rows []

variable (C : Claim T)

def Claim.Holds (db : Database) : Prop :=
  (C.there → (db.tables T).isSome = true) ∧ ∀ t ∈ db.tables T, C.rows t.rows

/-- The table has no rows, or is not there. -/
def Bare (T : String) (db : Database) : Prop := ∀ t ∈ db.tables T, t.rows = []

variable {C} {db db' : Database} {f : DatabaseFile}

theorem Claim.Holds.congr (h : C.Holds db) (hsame : db'.tables T = db.tables T) : C.Holds db' := by
  rw [Claim.Holds, hsame]
  exact h

theorem Claim.holds_of_some {t : SqlTable} (ht : db.tables T = some t) (hrows : C.rows t.rows) : C.Holds db := by
  refine ⟨fun _ => by rw [ht]; rfl, fun t' ht' => ?_⟩
  rw [ht] at ht'
  obtain rfl := Option.some.inj ht'
  exact hrows

theorem Bare.of_none (h : db.tables T = none) : Bare T db := fun t ht => by rw [h] at ht; cases ht

theorem put_self {t : SqlTable} : (db.put T t).tables T = some t := Function.update_self ..

theorem put_of_ne {name : String} {t : SqlTable} (h : name ≠ T) : (db.put name t).tables T = db.tables T :=
  Function.update_of_ne h.symm ..

theorem drop_self : (db.drop T).tables T = none := Function.update_self ..

theorem drop_of_ne {name : String} (h : name ≠ T) : (db.drop name).tables T = db.tables T :=
  Function.update_of_ne h.symm ..

theorem Claim.holds_put {t : SqlTable} (hrows : C.rows t.rows) : C.Holds (db.put T t) :=
  holds_of_some put_self hrows

theorem Claim.Holds.put {name : String} {t : SqlTable} (h : C.Holds db) (hrows : name = T → C.rows t.rows) :
    C.Holds (db.put name t) := by
  by_cases hname : name = T
  · subst hname
    exact holds_of_some put_self (hrows rfl)
  · exact h.congr (put_of_ne hname)

/-- The rows go over into other columns. -/
theorem Claim.rows_holding {t : SqlTable} {shape : Shape} {g : Row → Row} (hrows : C.rows t.rows)
    (hcarry : ∀ r ∈ t.rows, Carry T r (g r))
    (hnames : ∀ r ∈ t.rows, ∀ c value, carries T c = true → r c = some value → c ∈ shape.names) :
    C.rows (shape.holding (t.rows.map g)).rows := by
  change C.rows ((t.rows.map g).map shape.restrict)
  rw [List.map_map]
  exact C.carried (fun r hr => (hcarry r hr).restrict (hnames r hr)) hrows

/-! ### Statements that leave the table where it is -/

/-- The statement neither takes the table's name nor its rows, and carries over what it changes. -/
def Statement.Spares (T : String) : Statement → Prop
  | .createTable name _ | .dropTable name | .dropTableIfExists name => name ≠ T
  | .renameTable name newName => name ≠ T ∧ newName ≠ T
  | .dropColumn table column => table = T → carries T column = false
  | .insertSelect target _ _ => target ≠ T
  | .update table _ set => table = T → ∀ db row, Carry T row (set db row)
  | .insertOrIgnore table _ => table ≠ T
  | .createTableIfNotExists .. | .createIndexIfNotExists .. | .addColumn .. => True

theorem Claim.Holds.apply {stmt : Statement} {foreignKeys : Bool} (hstmt : stmt.Spares T) (h : C.Holds db)
    (hok : stmt.apply foreignKeys db = .ok db') : C.Holds db' := by
  cases stmt with
  | createTable name shape =>
    rw [Statement.apply] at hok
    split at hok
    · cases hok
    · cases hok
      exact h.congr (put_of_ne hstmt)
  | createTableIfNotExists name shape =>
    rw [Statement.apply] at hok
    split at hok
    · cases hok
      exact h
    · next hnone =>
      cases hok
      refine h.put fun hname => C.vacant fun hthere => hnone ?_
      rw [hname]
      exact h.1 hthere
  | createIndexIfNotExists index =>
    rw [Statement.apply] at hok
    split at hok
    · cases hok
      exact h
    · split at hok
      · cases hok
        exact h
      · cases hok
  | dropTable name =>
    rw [Statement.apply] at hok
    split at hok
    · cases hok
      exact h.congr (drop_of_ne hstmt)
    · cases hok
  | dropTableIfExists name =>
    cases hok
    exact h.congr (drop_of_ne hstmt)
  | renameTable name newName =>
    rw [Statement.apply] at hok
    split at hok
    · cases hok
    · split at hok
      · cases hok
      · cases hok
        refine h.congr ?_
        change Function.update (Function.update db.tables name none) newName _ T = _
        rw [Function.update_of_ne hstmt.2.symm, Function.update_of_ne hstmt.1.symm]
  | addColumn table column =>
    rw [Statement.apply] at hok
    split at hok
    · cases hok
    · next t ht =>
      split at hok
      · cases hok
      · next hnew =>
        cases hok
        refine h.put fun htable => ?_
        subst htable
        refine Claim.rows_holding (h.2 t ht) (fun r hr => Carry.set ?_ _) fun r hr c value _ hvalue => ?_
        · by_contra hsome
          exact hnew (t.within r hr _ hsome)
        · exact List.mem_map.mpr (by
            obtain ⟨c', hc', hname⟩ := List.mem_map.mp (mem_names hr hvalue)
            exact ⟨c', List.mem_append_left _ hc', hname⟩)
  | dropColumn table column =>
    rw [Statement.apply] at hok
    split at hok
    · cases hok
    · next t ht =>
      split at hok
      · cases hok
      · cases hok
        refine h.put fun htable => ?_
        subst htable
        rw [← List.map_id t.rows]
        refine Claim.rows_holding (h.2 t ht) (fun r _ => Carry.refl r) fun r hr c value hc hvalue => ?_
        obtain ⟨c', hc', hname⟩ := List.mem_map.mp (mem_names hr hvalue)
        refine List.mem_map.mpr ⟨c', List.mem_filter.mpr ⟨hc', decide_eq_true fun heq => ?_⟩, hname⟩
        rw [← hname, heq, hstmt rfl] at hc
        cases hc
  | insertSelect target columns source =>
    rw [Statement.apply] at hok
    split at hok
    · split at hok
      · dsimp only at hok
        split at hok
        · cases hok
          exact h.congr (put_of_ne hstmt)
        · cases hok
      · cases hok
    · cases hok
  | update table reads set =>
    rw [Statement.apply] at hok
    split at hok
    · cases hok
    · next t ht =>
      split at hok
      · dsimp only at hok
        split at hok
        · cases hok
          refine h.put fun htable => ?_
          subst htable
          exact Claim.rows_holding (h.2 t ht) (fun r _ => hstmt rfl db r) fun r hr c value _ => mem_names hr
        · cases hok
      · cases hok
  | insertOrIgnore table values =>
    rw [Statement.apply] at hok
    split at hok
    · cases hok
    · dsimp only at hok
      split at hok
      · cases hok
        exact h.congr (put_of_ne hstmt)
      · cases hok
        exact h

/-! ### Points of a boot -/

/-- The statement has left the table's name without the rows. -/
def Statement.Uncovers (T : String) (stmt : Statement) (f : DatabaseFile) : Prop :=
  match stmt with
  | .dropTable name | .renameTable name _ | .createTable name _ => name = T ∧ (SchemaOp.run stmt).error? f = none
  | .insertSelect target _ _ => target = T ∧ (SchemaOp.run stmt).error? f ≠ none
  | _ => False

/-- The last statement has, and outside of a transaction. -/
def Uncovers (T : String) : Option (SchemaOp × DatabaseFile) → Prop
  | some (.run stmt, f) => f.inTransaction = false ∧ stmt.Uncovers T f
  | _ => False

variable (C)

/-- What is on the disk at a point of a boot; the script for `sandboxes` begins a transaction. -/
def Point (last : Option (SchemaOp × DatabaseFile)) (f : DatabaseFile) : Prop :=
  (Uncovers T last → Bare T f.disk ∧ T ≠ "sandboxes") ∧ (¬ Uncovers T last → C.Holds f.disk)

def Settled (f : DatabaseFile) : Prop := C.Holds f.live ∧ C.Holds f.disk

/-- A part of a boot that begins and ends with what is claimed, whatever is lost in between. -/
def Keeps {α : Type} (c : SchemaM α) : Prop :=
  ∀ last f, Point C last f → Settled C f → c.Through SchemaOp.exec (Point C) (fun _ => Settled C) last f

variable {C} {α β : Type} {op : SchemaOp} {last : Option (SchemaOp × DatabaseFile)}

theorem point_of_not_uncovers (h : ¬ Uncovers T last) (hdisk : C.Holds f.disk) : Point C last f :=
  ⟨fun h' => absurd h' h, fun _ => hdisk⟩

theorem point_of_uncovers (hT : T ≠ "sandboxes") (h : Uncovers T last) (hdisk : Bare T f.disk) : Point C last f :=
  ⟨fun _ => ⟨hdisk, hT⟩, fun h' => absurd h h'⟩

theorem keeps_return (a : α) : Keeps C (pure a) := fun _ _ hpoint hsettled => ⟨hpoint, hsettled⟩

theorem keeps_raise (e : SqlError) : Keeps C (.raise e : SchemaM α) := fun _ _ hpoint _ => hpoint

theorem Keeps.bind {c : SchemaM α} {g : α → SchemaM β} (hc : Keeps C c) (hg : ∀ a, Keeps C (g a)) :
    Keeps C (c >>= g) := fun last f hpoint hsettled =>
  (hc last f hpoint hsettled).bind fun a last' f' hpoint' hsettled' => hg a last' f' hpoint' hsettled'

theorem Keeps.ite {p : Prop} [Decidable p] {c d : SchemaM α} (hc : Keeps C c) (hd : Keeps C d) :
    Keeps C (if p then c else d) := by
  split
  · exact hc
  · exact hd

theorem keeps_query {read : Database → α} : Keeps C (query read) := fun _ f hpoint hsettled =>
  ⟨hpoint, point_of_not_uncovers (fun h => h) hsettled.2, hsettled⟩

/-- A statement that spares the table, or none. -/
def SchemaOp.Spares (T : String) : SchemaOp → Prop
  | .run stmt => stmt.Spares T
  | _ => True

theorem settled_exec (hop : op.Spares T) (h : Settled C f) : Settled C (op.exec f) := by
  cases op with
  | query => exact h
  | foreignKeys on =>
    rw [SchemaOp.exec]
    split
    · exact h
    · exact h
  | begin => exact h
  | commit => exact ⟨h.1, h.1⟩
  | run stmt =>
    rw [SchemaOp.exec]
    split
    · exact h
    · next db hok =>
      have hlive : C.Holds db := h.1.apply hop hok
      refine ⟨hlive, ?_⟩
      split
      · exact h.2
      · exact hlive

theorem not_uncovers_run {stmt : Statement} (hstmt : stmt.Spares T) : ¬ Uncovers T (some (.run stmt, f)) := by
  rintro ⟨-, h⟩
  cases stmt with
  | createTable name shape => exact hstmt h.1
  | dropTable name => exact hstmt h.1
  | renameTable name newName => exact hstmt.1 h.1
  | insertSelect target columns source => exact hstmt h.1
  | _ => exact h

theorem not_uncovers_of_spares (hop : op.Spares T) : ¬ Uncovers T (some (op, f)) := by
  cases op with
  | run stmt => exact not_uncovers_run hop
  | _ => exact fun h => h

theorem point_exec (hop : op.Spares T) (h : Settled C f) : Point C (some (op, f)) (op.exec f) :=
  point_of_not_uncovers (not_uncovers_of_spares hop) (settled_exec hop h).2

theorem keeps_tryStatement (hop : op.Spares T) : Keeps C (tryStatement op) := fun _ _ hpoint hsettled =>
  ⟨hpoint, point_exec hop hsettled, settled_exec hop hsettled⟩

theorem keeps_statement (hop : op.Spares T) : Keeps C (statement op) := by
  refine (keeps_tryStatement hop).bind fun error => ?_
  cases error with
  | none => exact keeps_return ()
  | some e => exact keeps_raise e

theorem keeps_execute {stmt : Statement} (hstmt : stmt.Spares T) : Keeps C (execute stmt) :=
  keeps_statement (show (SchemaOp.run stmt).Spares T from hstmt)

theorem keeps_commit : Keeps C (.perform .commit fun _ => ()) := fun _ _ hpoint hsettled =>
  have hcommit : SchemaOp.commit.Spares T := trivial
  ⟨hpoint, point_exec hcommit hsettled, settled_exec hcommit hsettled⟩

theorem keeps_statements {ops : List SchemaOp} (hops : ∀ op ∈ ops, op.Spares T) : Keeps C (statements ops) := by
  induction ops with
  | nil => exact keeps_return ()
  | cons op ops ih =>
    exact (keeps_statement (hops op List.mem_cons_self)).bind fun _ =>
      ih fun op' hop' => hops op' (List.mem_cons_of_mem _ hop')

theorem keeps_executescript {ops : List SchemaOp} (hops : ∀ op ∈ ops, op.Spares T) : Keeps C (executescript ops) :=
  keeps_commit.bind fun _ => keeps_statements hops

/-! ### The two ways to rebuild a table -/

/-- A statement of a script that opens no transaction by itself. -/
theorem through_run {stmt : Statement} {ops : List SchemaOp} (hopens : stmt.opens = false) (hpoint : Point C last f)
    (hfails : ∀ e, stmt.apply f.foreignKeys f.live = .error e → Point C (some (.run stmt, f)) f)
    (hok : ∀ db, stmt.apply f.foreignKeys f.live = .ok db →
      (statements ops).Through SchemaOp.exec (Point C) (fun _ => Settled C) (some (.run stmt, f))
        { f with live := db, disk := if f.inTransaction then f.disk else db }) :
    (statements (.run stmt :: ops)).Through SchemaOp.exec (Point C) (fun _ => Settled C) last f := by
  refine ⟨hpoint, ?_⟩
  change (raiseIf ((SchemaOp.run stmt).error? f) >>= fun _ => statements ops).Through SchemaOp.exec (Point C)
    (fun _ => Settled C) (some (.run stmt, f)) ((SchemaOp.run stmt).exec f)
  cases happly : stmt.apply f.foreignKeys f.live with
  | error e =>
    have herror : (SchemaOp.run stmt).error? f = some e := by rw [SchemaOp.error?, happly]
    have hexec : (SchemaOp.run stmt).exec f = f := by rw [SchemaOp.exec, happly, hopens, Bool.or_false]
    rw [herror, hexec]
    exact hfails e happly
  | ok db =>
    have herror : (SchemaOp.run stmt).error? f = none := by rw [SchemaOp.error?, happly]
    have hexec : (SchemaOp.run stmt).exec f =
        { f with live := db, disk := if f.inTransaction then f.disk else db } := by
      rw [SchemaOp.exec, happly, hopens, Bool.or_false]
    rw [herror, hexec]
    exact hok db happly

/-- The columns that are carried over are copied as they are. -/
def Copies (T : String) (columns : List (String × SelectExpr)) (row : Row) : Prop :=
  ∀ c value, carries T c = true → row c = some value → columns.lookup c = some (.column c)

theorem Copies.carry {columns : List (String × SelectExpr)} {shape : Shape} (h : Copies T columns row) :
    Carry T row (Statement.selected shape columns row) := by
  intro c value hc hrow
  refine ⟨value, ?_, rfl⟩
  rw [Statement.selected, h c value hc hrow]
  exact hrow

theorem apply_createTable {foreignKeys : Bool} {name : String} {shape : Shape}
    (h : (Statement.createTable name shape).apply foreignKeys db = .ok db') :
    db.tables name = none ∧ db' = db.put name (shape.holding []) := by
  rw [Statement.apply] at h
  split at h
  · cases h
  · next hnone => exact ⟨Option.not_isSome_iff_eq_none.mp hnone, (Except.ok.inj h).symm⟩

theorem apply_insertSelect {foreignKeys : Bool} {target source : String} {columns : List (String × SelectExpr)}
    (h : (Statement.insertSelect target columns source).apply foreignKeys db = .ok db') :
    ∃ t t', db.tables source = some t ∧ db.tables target = some t' ∧ (∀ c ∈ columns, c.1 ∈ t'.names) ∧
      db' = db.put target (t'.toShape.holding (t'.rows ++ t.rows.map (Statement.selected t'.toShape columns))) := by
  rw [Statement.apply] at h
  split at h
  · next t t' hsource htarget =>
    split at h
    · next hcolumns =>
      dsimp only at h
      split at h
      · refine ⟨t, t', hsource, htarget, fun c hc => ?_, (Except.ok.inj h).symm⟩
        obtain ⟨hname, -⟩ := Bool.and_eq_true_iff.mp (List.all_eq_true.mp hcolumns c hc)
        exact List.contains_iff_mem.mp hname
      · cases h
    · cases h
  · cases h

theorem apply_dropTable {foreignKeys : Bool} {name : String}
    (h : (Statement.dropTable name).apply foreignKeys db = .ok db') : db' = db.drop name := by
  rw [Statement.apply] at h
  split at h
  · exact (Except.ok.inj h).symm
  · cases h

theorem apply_renameTable {foreignKeys : Bool} {name newName : String}
    (h : (Statement.renameTable name newName).apply foreignKeys db = .ok db') :
    ∃ t, db.tables name = some t ∧ db' = db.rename name newName t := by
  rw [Statement.apply] at h
  split at h
  · cases h
  · next t ht =>
    split at h
    · cases h
    · exact ⟨t, ht, (Except.ok.inj h).symm⟩

/-- The rows that are copied from the table satisfy what is claimed of its own. -/
theorem rows_copied {t : SqlTable} {shape : Shape} {columns : List (String × SelectExpr)} (hrows : C.rows t.rows)
    (hcopies : ∀ row ∈ t.rows, Copies T columns row) (hnames : ∀ c ∈ columns, c.1 ∈ shape.names) :
    C.rows (shape.holding ([] ++ t.rows.map (Statement.selected shape columns))).rows := by
  rw [List.nil_append]
  refine Claim.rows_holding hrows (fun r hr => (hcopies r hr).carry) fun r hr c value hc hvalue => ?_
  obtain ⟨before, after, rfl, -⟩ := List.lookup_eq_some_iff.mp (hcopies r hr c value hc hvalue)
  exact hnames (c, .column c) (List.mem_append_right _ List.mem_cons_self)

theorem Settled.after {stmt : Statement} (h : Settled C f) (hstmt : stmt.Spares T)
    (hok : stmt.apply f.foreignKeys f.live = .ok db) :
    Settled C { f with live := db, disk := if f.inTransaction then f.disk else db } := by
  have hlive := h.1.apply hstmt hok
  refine ⟨hlive, ?_⟩
  dsimp only
  split
  · exact h.2
  · exact hlive

theorem error?_of_error {stmt : Statement} {e : SqlError} (h : stmt.apply f.foreignKeys f.live = .error e) :
    (SchemaOp.run stmt).error? f = some e := by
  rw [SchemaOp.error?, h]

theorem error?_of_ok {stmt : Statement} (h : stmt.apply f.foreignKeys f.live = .ok db) :
    (SchemaOp.run stmt).error? f = none := by
  rw [SchemaOp.error?, h]

/-- The table is dropped and the second one takes its name. -/
theorem through_handOver {temp : String} {filled : SqlTable} {rest : List SchemaOp} (htemp : temp ≠ T)
    (hguard : T = "sandboxes" → f.inTransaction = true) (hpoint : Point C last f) (hsettled : Settled C f)
    (hfilled : f.live.tables temp = some filled) (hrows : C.rows filled.rows) (hrest : ∀ op ∈ rest, op.Spares T) :
    (statements (.run (.dropTable T) :: .run (.renameTable temp T) :: rest)).Through SchemaOp.exec (Point C)
      (fun _ => Settled C) last f := by
  refine through_run rfl hpoint (fun e hfails => point_of_not_uncovers (fun h => ?_) hsettled.2) fun db₁ hdropped => ?_
  · have hnone := h.2.2
    rw [error?_of_error hfails] at hnone
    cases hnone
  have hpoint₁ : Point C (some (.run (.dropTable T), f))
      { f with live := db₁, disk := if f.inTransaction then f.disk else db₁ } := by
    by_cases hin : f.inTransaction = true
    · refine point_of_not_uncovers (fun h => Bool.false_ne_true (h.1.symm.trans hin)) ?_
      dsimp only
      rw [if_pos hin]
      exact hsettled.2
    · refine point_of_uncovers (mt hguard hin) ⟨eq_false_of_ne_true hin, rfl, error?_of_ok hdropped⟩ ?_
      dsimp only
      rw [if_neg hin, apply_dropTable hdropped]
      exact .of_none drop_self
  have hfilled₁ : db₁.tables temp = some filled := by
    rw [apply_dropTable hdropped, drop_of_ne htemp.symm, hfilled]
  have hvacant : db₁.tables T = none := by rw [apply_dropTable hdropped, drop_self]
  refine through_run rfl hpoint₁ (fun e hfails => ?_) fun db₂ hrenamed => ?_
  · dsimp only at hfails
    rw [Statement.apply, hfilled₁, hvacant] at hfails
    cases hfails
  · obtain ⟨t, ht, rfl⟩ := apply_renameTable hrenamed
    obtain rfl := Option.some.inj (ht.symm.trans hfilled₁)
    have hlive : C.Holds (db₁.rename temp T t) := Claim.holds_of_some (Function.update_self ..) hrows
    have hsettled₂ : Settled C { f with
        live := db₁.rename temp T t
        disk := if f.inTransaction then (if f.inTransaction then f.disk else db₁) else db₁.rename temp T t } := by
      refine ⟨hlive, ?_⟩
      dsimp only
      by_cases hin : f.inTransaction = true
      · rw [if_pos hin, if_pos hin]
        exact hsettled.2
      · rw [if_neg hin]
        exact hlive
    exact keeps_statements hrest _ _ (point_of_not_uncovers (fun h => htemp h.2.1) hsettled₂.2) hsettled₂

/-- A second table takes the rows and then the name. -/
theorem through_swapped {temp : String} {shape : Shape} {columns : List (String × SelectExpr)}
    {rest : List SchemaOp} (htemp : temp ≠ T) (hguard : T = "sandboxes" → f.inTransaction = true)
    (hpoint : Point C last f) (hsettled : Settled C f)
    (hcopies : ∀ t ∈ f.live.tables T, ∀ row ∈ t.rows, Copies T columns row) (hrest : ∀ op ∈ rest, op.Spares T) :
    (statements (swapped T temp shape columns ++ rest)).Through SchemaOp.exec (Point C) (fun _ => Settled C)
      last f := by
  have hcreate : (Statement.createTable temp shape).Spares T := htemp
  have hcopy : (Statement.insertSelect temp columns T).Spares T := htemp
  refine through_run rfl hpoint (fun e _ => point_of_not_uncovers (not_uncovers_run hcreate) hsettled.2)
    fun db₁ hcreated => ?_
  have hone := hsettled.after hcreate hcreated
  refine through_run rfl (point_of_not_uncovers (not_uncovers_run hcreate) hone.2)
    (fun e _ => point_of_not_uncovers (not_uncovers_run hcopy) hone.2) fun db₂ hcopied => ?_
  have htwo := hone.after hcopy hcopied
  obtain ⟨-, rfl⟩ := apply_createTable hcreated
  obtain ⟨t, t', ht, ht', hnames, rfl⟩ := apply_insertSelect hcopied
  rw [put_of_ne htemp] at ht
  obtain rfl := Option.some.inj (put_self.symm.trans ht')
  exact through_handOver htemp hguard (point_of_not_uncovers (not_uncovers_run hcopy) htwo.2) htwo put_self
    (rows_copied (hsettled.1.2 t ht) (hcopies t ht) hnames) hrest

/-- The table gives its name to a new one, and the rows follow. -/
theorem through_renamedAway {old : String} {shape : Shape} {columns : List (String × SelectExpr)}
    {rest : List SchemaOp} (hT : T ≠ "sandboxes") (hold : old ≠ T) (hin : f.inTransaction = false)
    (hpoint : Point C last f) (hsettled : Settled C f)
    (hcopies : ∀ t ∈ f.live.tables T, ∀ row ∈ t.rows, Copies T columns row)
    (hrest : ∀ op ∈ rest, op.Spares T) :
    (statements (renamedAway T old shape columns ++ rest)).Through SchemaOp.exec (Point C) (fun _ => Settled C)
      last f := by
  refine through_run rfl hpoint (fun e hfails => point_of_not_uncovers (fun h => ?_) hsettled.2) fun db₁ hrenamed => ?_
  · have hnone := h.2.2
    rw [error?_of_error hfails] at hnone
    cases hnone
  obtain ⟨t, ht, rfl⟩ := apply_renameTable hrenamed
  have hvacant : (f.live.rename T old t).tables T = none := by
    change Function.update (Function.update f.live.tables T none) old _ T = none
    rw [Function.update_of_ne hold.symm, Function.update_self]
  have hmoved : (f.live.rename T old t).tables old = some t := Function.update_self ..
  rw [hin, if_neg Bool.false_ne_true]
  refine through_run rfl (point_of_uncovers hT ⟨hin, rfl, error?_of_ok hrenamed⟩ (.of_none hvacant))
    (fun e hfails => ?_) fun db₂ hcreated => ?_
  · dsimp only at hfails
    rw [Statement.apply, hvacant] at hfails
    cases hfails
  obtain ⟨-, rfl⟩ := apply_createTable hcreated
  have hbare : Bare T ((f.live.rename T old t).put T (shape.holding [])) := by
    intro t' ht'
    obtain rfl := Option.some.inj (put_self.symm.trans ht')
    rfl
  dsimp only
  rw [if_neg Bool.false_ne_true]
  refine through_run rfl (point_of_uncovers hT ⟨rfl, rfl, error?_of_ok hcreated⟩ hbare)
    (fun e hfails => point_of_uncovers hT ⟨rfl, rfl, ?_⟩ hbare) fun db₃ hcopied => ?_
  · rw [error?_of_error hfails]
    exact Option.some_ne_none e
  obtain ⟨t₁, t₂, ht₁, ht₂, hnames, rfl⟩ := apply_insertSelect hcopied
  dsimp only at ht₁ ht₂
  rw [put_of_ne hold.symm, hmoved] at ht₁
  obtain rfl := Option.some.inj ht₁
  obtain rfl := Option.some.inj (put_self.symm.trans ht₂)
  have hrows := rows_copied (hsettled.1.2 t ht) (hcopies t ht) hnames
  have hdrop : ∀ op ∈ SchemaOp.run (.dropTable old) :: rest, op.Spares T := by
    rintro op (_ | ⟨_, hop⟩)
    · exact hold
    · exact hrest op hop
  refine keeps_statements hdrop _ _ (point_of_not_uncovers (fun h => ?_) (Claim.holds_put hrows))
    ⟨Claim.holds_put hrows, Claim.holds_put hrows⟩
  exact h.2.2 (error?_of_ok hcopied)

/-! ### Scripts -/

/-- Statements before a rebuild that have no effect on the table. -/
theorem through_before {before ops : List SchemaOp} (hbefore : ∀ op ∈ before, op.Spares T ∧
      ∀ f, op.error? f = none ∧ (op.exec f).live.tables T = f.live.tables T)
    (hpoint : Point C last f) (hsettled : Settled C f)
    (hnext : ∀ last' f', f' = before.foldl (fun f op => SchemaOp.exec op f) f → Point C last' f' → Settled C f' →
      f'.live.tables T = f.live.tables T →
      (statements ops).Through SchemaOp.exec (Point C) (fun _ => Settled C) last' f') :
    (statements (before ++ ops)).Through SchemaOp.exec (Point C) (fun _ => Settled C) last f := by
  induction before generalizing last f with
  | nil => exact hnext last f rfl hpoint hsettled rfl
  | cons op before ih =>
    obtain ⟨hspares, hstill⟩ := hbefore op List.mem_cons_self
    refine ⟨hpoint, ?_⟩
    change (raiseIf (op.error? f) >>= fun _ => statements (before ++ ops)).Through SchemaOp.exec (Point C)
      (fun _ => Settled C) (some (op, f)) (op.exec f)
    rw [(hstill f).1]
    refine ih (fun op' hop' => hbefore op' (List.mem_cons_of_mem _ hop')) (point_exec hspares hsettled)
      (settled_exec hspares hsettled) fun last' f' hf' hpoint' hsettled' hsame => ?_
    exact hnext last' f' hf' hpoint' hsettled' (hsame.trans (hstill f).2)

theorem spares_swapped {table temp : String} {shape : Shape} {columns : List (String × SelectExpr)}
    (htable : table ≠ T) (htemp : temp ≠ T) : ∀ op ∈ swapped table temp shape columns, op.Spares T := by
  intro op hop
  simp only [swapped, List.mem_cons, List.not_mem_nil, or_false] at hop
  rcases hop with rfl | rfl | rfl | rfl
  · exact htemp
  · exact htemp
  · exact htable
  · exact ⟨htemp, htable⟩

theorem spares_renamedAway {table old : String} {shape : Shape} {columns : List (String × SelectExpr)}
    (htable : table ≠ T) (hold : old ≠ T) : ∀ op ∈ renamedAway table old shape columns, op.Spares T := by
  intro op hop
  simp only [renamedAway, List.mem_cons, List.not_mem_nil, or_false] at hop
  rcases hop with rfl | rfl | rfl | rfl
  · exact ⟨htable, hold⟩
  · exact htable
  · exact htable
  · exact hold

theorem spares_indexed {table : String} {indexes : List (String × List String)} :
    ∀ op ∈ indexed table indexes, op.Spares T := by
  intro op hop
  obtain ⟨index, -, rfl⟩ := List.mem_map.mp hop
  trivial

/-- A script that swaps a table, the one that is looked at or another. -/
theorem through_swapScript {table temp : String} {shape : Shape} {columns : List (String × SelectExpr)}
    {before rest : List SchemaOp} (hbefore : ∀ op ∈ before, op.Spares T ∧
      ∀ f, op.error? f = none ∧ (op.exec f).live.tables T = f.live.tables T)
    (htemp : temp ≠ T)
    (hguard : table = "sandboxes" → ∀ f, (before.foldl (fun f op => SchemaOp.exec op f) f).inTransaction = true)
    (hcopies : table = T → ∀ t ∈ f.live.tables T, ∀ row ∈ t.rows, Copies T columns row)
    (hrest : ∀ op ∈ rest, op.Spares T) (hpoint : Point C last f) (hsettled : Settled C f) :
    (executescript (before ++ (swapped table temp shape columns ++ rest))).Through SchemaOp.exec (Point C)
      (fun _ => Settled C) last f := by
  have hcommit : SchemaOp.commit.Spares T := trivial
  by_cases htable : table = T
  · subst htable
    refine ⟨hpoint, ?_⟩
    refine through_before hbefore (point_exec hcommit hsettled) (settled_exec hcommit hsettled)
      fun last' f' hf' hpoint' hsettled' hsame => ?_
    exact through_swapped htemp (fun hT => by rw [hf']; exact hguard hT _) hpoint' hsettled'
      (by rw [hsame]; exact hcopies rfl) hrest
  · refine keeps_executescript (fun op hop => ?_) last f hpoint hsettled
    rcases List.mem_append.mp hop with hop | hop
    · exact (hbefore op hop).1
    · rcases List.mem_append.mp hop with hop | hop
      · exact spares_swapped htable htemp op hop
      · exact hrest op hop

theorem through_renameScript {table old : String} {shape : Shape} {columns : List (String × SelectExpr)}
    {rest : List SchemaOp} (hguard : table ≠ "sandboxes") (hold : old ≠ T)
    (hcopies : table = T → ∀ t ∈ f.live.tables T, ∀ row ∈ t.rows, Copies T columns row)
    (hrest : ∀ op ∈ rest, op.Spares T) (hpoint : Point C last f) (hsettled : Settled C f) :
    (executescript (renamedAway table old shape columns ++ rest)).Through SchemaOp.exec (Point C)
      (fun _ => Settled C) last f := by
  have hcommit : SchemaOp.commit.Spares T := trivial
  by_cases htable : table = T
  · subst htable
    refine ⟨hpoint, ?_⟩
    exact through_renamedAway hguard hold rfl (point_exec hcommit hsettled) (settled_exec hcommit hsettled)
      (hcopies rfl) hrest
  · refine keeps_executescript (fun op hop => ?_) last f hpoint hsettled
    rcases List.mem_append.mp hop with hop | hop
    · exact spares_renamedAway htable hold op hop
    · exact hrest op hop

/-! ### Columns -/

theorem carries_recipeId (table : String) : carries table "recipe_id" = false := by
  unfold carries
  split_ifs <;> rfl

theorem lookup_copied {names : List String} {c : String} (h : c ∈ names) :
    (copied names).lookup c = some (.column c) := by
  induction names with
  | nil => cases h
  | cons name names ih =>
    rw [copied, List.map_cons, List.lookup_cons]
    by_cases hname : c = name
    · subst hname
      rw [beq_self_eq_true]
    · rw [beq_eq_false_iff_ne.mpr hname]
      exact ih ((List.mem_cons.mp h).resolve_left hname)

theorem copies_of_carries {names : List String} (h : ∀ c, carries T c = true → c ∈ names) (row : Row) :
    Copies T (copied names) row := fun c _ hc _ => lookup_copied (h c hc)

def columnsOf (db : Database) (table : String) : List ColumnDef := ((db.tables table).map (·.columns)).getD []

theorem copies_columns {t : SqlTable} (ht : db.tables T = some t) (hrow : row ∈ t.rows) :
    Copies T (copied ((columnsOf db T).map (·.name))) row := by
  intro c value _ hvalue
  rw [columnsOf, ht]
  exact lookup_copied (mem_names hrow hvalue)

theorem copies_columns_without {t : SqlTable} (ht : db.tables T = some t) (hrow : row ∈ t.rows) :
    Copies T (copied (((columnsOf db T).map (·.name)).filter (· ≠ "recipe_id"))) row := by
  intro c value hc hvalue
  rw [columnsOf, ht]
  refine lookup_copied (List.mem_filter.mpr ⟨mem_names hrow hvalue, decide_eq_true ?_⟩)
  rintro rfl
  rw [carries_recipeId] at hc
  cases hc

theorem keeps_tableInfo_bind {table : String} {g : List ColumnDef → SchemaM Unit}
    (hg : ∀ last f, Point C last f → Settled C f →
      (g (columnsOf f.live table)).Through SchemaOp.exec (Point C) (fun _ => Settled C) last f) :
    Keeps C (tableInfo table >>= g) := fun _ f hpoint hsettled =>
  ⟨hpoint, hg _ f (point_of_not_uncovers (fun h => h) hsettled.2) hsettled⟩

end Schema

end Krewhub
