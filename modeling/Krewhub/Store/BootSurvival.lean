import Krewhub.Store.MigrationCrashes

/-!
# What survives the boots

Every migration begins and ends with the rows of a table under its name, unless it is cut off where they are not.
So after any boots, some of which may have died, a table that migrations rebuild has its rows exactly when no boot
has died there.
-/

namespace Krewhub

namespace Schema

variable {T : String} {C : Claim T}

/-! ### The migrations -/

theorem keeps_tableExists (table : String) : Keeps C (tableExists table) := keeps_query

theorem keeps_tableInfo (table : String) : Keeps C (tableInfo table) := keeps_query

theorem keeps_addColumnIfMissing (table : String) (column : ColumnDef) :
    Keeps C (addColumnIfMissing table column) :=
  (keeps_tableExists table).bind fun _ => .ite (keeps_return ()) <|
    (keeps_tableInfo table).bind fun _ => .ite (keeps_return ()) (keeps_execute trivial)

theorem keeps_createTableIfMissing (table : String) (shape : Shape) : Keeps C (createTableIfMissing table shape) :=
  (keeps_tableExists table).bind fun _ => .ite (keeps_return ()) <|
    keeps_executescript fun _ hop => by
      rw [List.mem_singleton.mp hop]
      trivial

theorem keeps_createIndexIfMissing (name table : String) (columns : List String) :
    Keeps C (createIndexIfMissing name table columns) :=
  (keeps_tableExists table).bind fun _ => .ite (keeps_return ()) <|
    keeps_query.bind fun _ => .ite (keeps_return ()) (keeps_execute trivial)

theorem keeps_columnIsNullable (table column : String) : Keeps C (columnIsNullable table column) :=
  (keeps_tableInfo table).bind fun _ => keeps_return _

theorem Keeps.whenDue {action : SchemaM Unit} (h : Keeps C action) (table : String) (due : Shape → Bool) :
    Keeps C (whenDue table due action) := by
  refine (keeps_tableExists table).bind fun _ => .ite (keeps_return ()) ?_
  refine (keeps_query : Keeps C (sqlOf table)).bind fun shape => ?_
  cases shape with
  | none => exact keeps_return ()
  | some shape => exact .ite h (keeps_return ())

theorem keeps_dropIfThere {table : String} (h : table ≠ T) : Keeps C (dropIfThere table) :=
  (keeps_tableExists table).bind fun _ => .ite (keeps_execute h) (keeps_return ())

/-- A name that is not among the tables is not the table. -/
theorem ne_of_rebuilt (hT : T ∈ rebuiltTables) {name : String} (h : name ∉ rebuiltTables) : name ≠ T := by
  rintro rfl
  exact h hT

theorem keeps_guardedSwap {table temp : String} {shape : Shape} {indexes : List (String × List String)}
    {columns : List String} {f : DatabaseFile} {last : Option (SchemaOp × DatabaseFile)}
    (hguard : table ≠ "sandboxes") (htemp : temp ≠ T)
    (hcopies : table = T → ∀ t ∈ f.live.tables T, ∀ row ∈ t.rows, Copies T (copied columns) row)
    (hpoint : Point C last f) (hsettled : Settled C f) :
    (executescript (guardedSwap table temp shape indexes columns)).Through SchemaOp.exec (Point C)
      (fun _ => Settled C) last f := by
  rw [guardedSwap, List.append_assoc, List.append_assoc]
  refine through_swapScript (fun op hop => ?_) htemp (absurd · hguard) hcopies (fun op hop => ?_) hpoint hsettled
  · simp only [List.mem_cons, List.not_mem_nil, or_false] at hop
    rcases hop with rfl | rfl
    · refine ⟨trivial, fun f => ⟨rfl, ?_⟩⟩
      rw [SchemaOp.exec]
      split <;> rfl
    · exact ⟨htemp, fun f => ⟨rfl, drop_of_ne htemp⟩⟩
  · rcases List.mem_append.mp hop with hop | hop
    · exact spares_indexed op hop
    · rw [List.mem_singleton.mp hop]
      trivial

/-- A swap without more ado. -/
theorem keeps_swap {table temp : String} {shape : Shape} {columns : List (String × SelectExpr)}
    {rest : List SchemaOp} {f : DatabaseFile} {last : Option (SchemaOp × DatabaseFile)}
    (hguard : table ≠ "sandboxes") (htemp : temp ≠ T)
    (hcopies : table = T → ∀ t ∈ f.live.tables T, ∀ row ∈ t.rows, Copies T columns row)
    (hrest : ∀ op ∈ rest, op.Spares T) (hpoint : Point C last f) (hsettled : Settled C f) :
    (executescript (swapped table temp shape columns ++ rest)).Through SchemaOp.exec (Point C) (fun _ => Settled C)
      last f := by
  have hnone : ∀ op ∈ ([] : List SchemaOp), op.Spares T ∧
      ∀ f, op.error? f = none ∧ (op.exec f).live.tables T = f.live.tables T := fun op hop => by cases hop
  exact through_swapScript hnone htemp (absurd · hguard) hcopies hrest hpoint hsettled

/-- A rebuild with the columns that the table has. -/
theorem keeps_rebuild_guardedSwap {table temp : String} (hguard : table ≠ "sandboxes") (htemp : temp ≠ T)
    (shape : Shape) (indexes : List (String × List String)) :
    Keeps C (rebuild table (guardedSwap table temp shape indexes)) := by
  refine keeps_tableInfo_bind fun last f hpoint hsettled => ?_
  refine keeps_guardedSwap hguard htemp (fun htable t ht row hrow => ?_) hpoint hsettled
  subst htable
  exact copies_columns ht hrow

theorem carries_events {c : String} (h : carries "events" c = true) : c ∈ carriedEventColumns :=
  List.contains_iff_mem.mp h

theorem carries_sandboxes {c : String} (h : carries "sandboxes" c = true) : c ∈ sandboxesShape.names :=
  List.contains_iff_mem.mp h

theorem carries_taskLinks {c : String} (h : carries "task_links" c = true) : c ∈ taskLinksShape.names :=
  List.contains_iff_mem.mp h

theorem carries_cookbookShares {c : String} (h : carries "cookbook_shares" c = true) : c ∈ cookbookSharesShape.names :=
  List.contains_iff_mem.mp h

/-- The two rebuilds of `events` that name its columns. -/
theorem keeps_renameEvents (hT : T ∈ rebuiltTables) {old : String} (hold : old ∉ rebuiltTables) {shape : Shape}
    {columns : List (String × SelectExpr)} {indexes : List (String × List String)}
    (hcolumns : ∀ c ∈ carriedEventColumns, columns.lookup c = some (.column c)) :
    Keeps C (executescript (renamedAway "events" old shape columns ++ indexed "events" indexes)) := by
  intro last f hpoint hsettled
  refine through_renameScript (by decide) (ne_of_rebuilt hT hold) (fun htable t _ row _ c value hc _ => ?_)
    spares_indexed hpoint hsettled
  subst htable
  exact hcolumns c (carries_events hc)

theorem keeps_migrateEventsActorTypeHook (hT : T ∈ rebuiltTables) : Keeps C migrateEventsActorTypeHook :=
  (keeps_renameEvents hT (by decide) (by decide)).whenDue _ _

theorem keeps_migrateEventsAddTypes (hT : T ∈ rebuiltTables) : Keeps C migrateEventsAddTypes :=
  (keeps_renameEvents hT (by decide) (by decide)).whenDue _ _

theorem keeps_relaxEventsRecipeIdNullable (hT : T ∈ rebuiltTables) : Keeps C relaxEventsRecipeIdNullable := by
  refine (keeps_tableExists _).bind fun _ => .ite (keeps_return ()) ?_
  refine (keeps_tableInfo _).bind fun _ => .ite (keeps_return ()) ?_
  refine (keeps_columnIsNullable _ _).bind fun _ => .ite (keeps_return ()) ?_
  refine keeps_tableInfo_bind fun last f hpoint hsettled => ?_
  refine keeps_swap (by decide) (ne_of_rebuilt hT (by decide)) (fun htable t ht row hrow => ?_) spares_indexed
    hpoint hsettled
  subst htable
  exact copies_columns ht hrow

theorem keeps_migrateEventsAddBundleLifecycleTypes (hT : T ∈ rebuiltTables) :
    Keeps C migrateEventsAddBundleLifecycleTypes :=
  (keeps_rebuild_guardedSwap (by decide) (ne_of_rebuilt hT (by decide)) _ _).whenDue _ _

theorem keeps_migrateEventsAddOrchTypes (hT : T ∈ rebuiltTables) : Keeps C migrateEventsAddOrchTypes :=
  (keeps_rebuild_guardedSwap (by decide) (ne_of_rebuilt hT (by decide)) _ _).whenDue _ _

/-- A column is filled where it has no value. -/
theorem carry_fill {row : Row} {c : String} {p : Bool} (h : p = true → row c = none) (value : Option String) :
    Carry T row (if p = true then row.set c value else row) := by
  split
  · next hp => exact .set (h hp) value
  · exact .refl row

theorem isNone_of_and {value : Option String} {p : Bool} (h : (p && value.isNone) = true) : value = none :=
  Option.isNone_iff_eq_none.mp (Bool.and_eq_true_iff.mp h).2

theorem carry_graphTerminalAt (row : Row) : Carry T row (graphTerminalAtFromDigestedAt row) :=
  carry_fill isNone_of_and _

theorem carry_owner (row : Row) : Carry T row (ownerFromCreatedBy row) :=
  carry_fill (fun h => Option.isNone_iff_eq_none.mp (Bool.and_eq_true_iff.mp h).1) _

theorem carry_cookbook (db : Database) (row : Row) : Carry T row (cookbookFromRecipe db row) :=
  carry_fill (fun h => Option.isNone_iff_eq_none.mp (Bool.and_eq_true_iff.mp h).1) _

theorem carry_updatedAt (now : String) (db : Database) (row : Row) : Carry T row (updatedAtOr now db row) :=
  carry_fill Option.isNone_iff_eq_none.mp _

theorem carry_session (accountId : String) (wallet : Option String) (row : Row) :
    Carry T row (sessionOf accountId wallet row) :=
  carry_fill isNone_of_and _

/-- Statuses that are folded into the same one stand for it. -/
theorem carry_foldStatus {statuses : List String} {status : String}
    (h : ∀ s ∈ statuses, folded "bundles" "status" s = folded "bundles" "status" status) (row : Row) :
    Carry "bundles" row (foldStatus statuses status row) := by
  rw [foldStatus]
  split
  · next hfolds =>
    intro c value _ hvalue
    by_cases hc : c = "status"
    · subst hc
      rw [hvalue] at hfolds
      exact ⟨status, Function.update_self .., (h value (List.contains_iff_mem.mp hfolds)).symm⟩
    · exact ⟨value, by rw [Row.set, Function.update_of_ne hc]; exact hvalue, rfl⟩
  · exact .refl row

theorem keeps_migrateBundlesGraphTerminalAt : Keeps C migrateBundlesGraphTerminalAt := by
  refine (keeps_tableExists _).bind fun _ => .ite (keeps_return ()) ?_
  refine (keeps_tableInfo _).bind fun _ => .ite (keeps_return ()) ?_
  have hadd : (Statement.addColumn "bundles" (text "graph_terminal_at")).Spares T := trivial
  have hfill : (Statement.update "bundles" [("bundles", "digested_at")] fun _ =>
    graphTerminalAtFromDigestedAt).Spares T := fun _ _ row => carry_graphTerminalAt row
  exact (keeps_execute hadd).bind fun _ => (keeps_execute hfill).bind fun _ => keeps_commit

/-- An update whose `OperationalError` is logged and passed over. -/
theorem keeps_tolerate {stmt : Statement} (hstmt : stmt.Spares T) : Keeps C (tolerate stmt) := by
  have hop : (SchemaOp.run stmt).Spares T := hstmt
  refine (keeps_tryStatement hop).bind fun error => ?_
  rcases error with _ | _ | _
  · exact keeps_return ()
  · exact keeps_return ()
  · exact keeps_raise _

theorem keeps_backfillBundleOwnerFromCreatedBy : Keeps C backfillBundleOwnerFromCreatedBy := by
  refine (keeps_tableExists _).bind fun _ => .ite (keeps_return ()) ?_
  refine (keeps_tableInfo _).bind fun _ => .ite (keeps_return ()) ?_
  have hfill : (Statement.update "bundles" [] fun _ => ownerFromCreatedBy).Spares T := fun _ _ row => carry_owner row
  exact keeps_tolerate hfill

theorem keeps_relaxBundlesRecipeIdNullable (hT : T ∈ rebuiltTables) : Keeps C relaxBundlesRecipeIdNullable := by
  refine (keeps_tableExists _).bind fun _ => .ite (keeps_return ()) ?_
  refine (keeps_tableInfo _).bind fun _ => .ite (keeps_return ()) ?_
  refine (keeps_columnIsNullable _ _).bind fun _ => .ite (keeps_return ()) ?_
  exact keeps_rebuild_guardedSwap (by decide) (ne_of_rebuilt hT (by decide)) _ _

theorem keeps_migrateBundlesAddClosedStatus (hT : T ∈ rebuiltTables) : Keeps C migrateBundlesAddClosedStatus :=
  (keeps_rebuild_guardedSwap (by decide) (ne_of_rebuilt hT (by decide)) _ _).whenDue _ _

theorem keeps_collapseBundlesStatusToOpenClosed (hT : T ∈ rebuiltTables) :
    Keeps C collapseBundlesStatusToOpenClosed := by
  have hfolds : ∀ {statuses : List String} {status : String},
      (∀ s ∈ statuses, folded "bundles" "status" s = folded "bundles" "status" status) →
      (Statement.update "bundles" [] fun _ => foldStatus statuses status).Spares T := by
    rintro statuses status h rfl _ row
    exact carry_foldStatus h row
  refine Keeps.whenDue ?_ _ _
  exact (keeps_execute (hfolds (by decide))).bind fun _ => (keeps_execute (hfolds (by decide))).bind fun _ =>
    keeps_rebuild_guardedSwap (by decide) (ne_of_rebuilt hT (by decide)) _ _

theorem keeps_backfillCookbookId (table : String) : Keeps C (backfillCookbookId table) := by
  refine (keeps_tableExists _).bind fun _ => .ite (keeps_return ()) ?_
  refine (keeps_tableInfo _).bind fun _ => .ite (keeps_return ()) ?_
  have hfill : (Statement.update table [("recipes", "id"), ("recipes", "cookbook_id")] cookbookFromRecipe).Spares T :=
    fun _ db row => carry_cookbook db row
  exact keeps_tolerate hfill

theorem keeps_backfillCookbookIdFromRecipe : Keeps C backfillCookbookIdFromRecipe :=
  (keeps_tableExists _).bind fun _ => .ite (keeps_return ()) <|
    (keeps_backfillCookbookId _).bind fun _ => (keeps_backfillCookbookId _).bind fun _ => keeps_backfillCookbookId _

theorem keeps_dropBundlesRecipeId (hT : T ∈ rebuiltTables) : Keeps C dropBundlesRecipeId := by
  refine keeps_tableInfo_bind fun last f hpoint hsettled => ?_
  split
  · exact keeps_return () last f hpoint hsettled
  · refine keeps_guardedSwap (by decide) (ne_of_rebuilt hT (by decide)) (fun htable t ht row hrow => ?_) hpoint hsettled
    subst htable
    exact copies_columns_without ht hrow

theorem keeps_dropEventsRecipeId (hT : T ∈ rebuiltTables) : Keeps C dropEventsRecipeId := by
  refine (keeps_tableExists _).bind fun _ => .ite (keeps_return ()) ?_
  refine keeps_tableInfo_bind fun last f hpoint hsettled => ?_
  split
  · exact keeps_return () last f hpoint hsettled
  · refine keeps_guardedSwap (by decide) (ne_of_rebuilt hT (by decide)) (fun htable t ht row hrow => ?_) hpoint hsettled
    subst htable
    exact copies_columns_without ht hrow

/-- A statement that fails changes nothing. -/
theorem through_tryStatement {stmt : Statement} {f : DatabaseFile} {last : Option (SchemaOp × DatabaseFile)}
    (hstmt : stmt.Spares T) (hpoint : Point C last f) (hsettled : Settled C f) :
    (tryStatement (.run stmt)).Through SchemaOp.exec (Point C)
      (fun error f' => Settled C f' ∧ (error ≠ none → f'.live = f.live)) last f := by
  have hop : (SchemaOp.run stmt).Spares T := hstmt
  refine ⟨hpoint, point_exec hop hsettled, settled_exec hop hsettled, fun herror => ?_⟩
  cases happly : stmt.apply f.foreignKeys f.live with
  | error e => rw [SchemaOp.exec, happly]
  | ok db => exact absurd (error?_of_ok happly) herror

theorem keeps_dropWatchLogRecipeId (k : BootSetup) (hT : T ∈ rebuiltTables) : Keeps C (dropWatchLogRecipeId k) := by
  refine (keeps_tableExists _).bind fun _ => .ite (keeps_return ()) ?_
  refine keeps_tableInfo_bind fun last f hpoint hsettled => ?_
  split
  · exact keeps_return () last f hpoint hsettled
  · have hdrop : (Statement.dropColumn "watch_log" "recipe_id").Spares T := by
      rintro rfl
      exact carries_recipeId _
    refine Coro.Through.bind (Q := fun error f' => Settled C f' ∧ (error ≠ none → f'.live = f.live)) ?_
      fun error last' f' hpoint' h => ?_
    · rw [tryDropColumn]
      split
      · exact through_tryStatement hdrop hpoint hsettled
      · exact ⟨hpoint, point_of_not_uncovers (fun h => h) hsettled.2, hsettled, fun _ => rfl⟩
    · rcases error with _ | _ | _
      · exact keeps_return () last' f' hpoint' h.1
      · refine keeps_swap (by decide) (ne_of_rebuilt hT (by decide)) (fun htable t ht row hrow => ?_) spares_indexed
          hpoint' h.1
        rw [h.2 (Option.some_ne_none _)] at ht
        subst htable
        exact copies_columns_without ht hrow
      · exact keeps_raise _ last' f' hpoint' h.1

theorem keeps_dropRecipeIdColumnsAndTables (k : BootSetup) (hT : T ∈ rebuiltTables) :
    Keeps C (dropRecipeIdColumnsAndTables k) := by
  refine (keeps_tableExists _).bind fun _ => .ite (keeps_return ()) ?_
  exact (keeps_dropBundlesRecipeId hT).bind fun _ => (keeps_dropEventsRecipeId hT).bind fun _ =>
    (keeps_dropWatchLogRecipeId k hT).bind fun _ => (keeps_dropIfThere (ne_of_rebuilt hT (by decide))).bind fun _ =>
      keeps_dropIfThere (ne_of_rebuilt hT (by decide))

theorem keeps_migrateTasksAddBlockedOnReviewStatus (hT : T ∈ rebuiltTables) :
    Keeps C migrateTasksAddBlockedOnReviewStatus :=
  (keeps_rebuild_guardedSwap (by decide) (ne_of_rebuilt hT (by decide)) _ _).whenDue _ _

theorem keeps_backfillTaskUpdatedAt (k : BootSetup) : Keeps C (backfillTaskUpdatedAt k) := by
  refine (keeps_tableExists _).bind fun _ => .ite (keeps_return ()) ?_
  refine (keeps_tableExists _).bind fun _ => .ite (keeps_return ()) ?_
  have hfill : (Statement.update "tasks" [("tasks", "completed_at"), ("tasks", "claimed_at"),
      ("bundles", "created_at"), ("bundles", "id"), ("tasks", "bundle_id")] (updatedAtOr k.now)).Spares T :=
    fun _ db row => carry_updatedAt k.now db row
  exact (keeps_execute hfill).bind fun _ => keeps_commit

theorem keeps_relaxSandboxesTaskId (hT : T ∈ rebuiltTables) : Keeps C relaxSandboxesTaskId := by
  refine Keeps.whenDue (fun last f hpoint hsettled => ?_) _ _
  rw [List.append_assoc, List.append_assoc]
  refine through_swapScript (fun op hop => ?_) (ne_of_rebuilt hT (by decide)) (fun _ _ => rfl)
    (fun htable t _ row _ => ?_) (fun op hop => ?_) hpoint hsettled
  · rw [List.mem_singleton.mp hop]
    exact ⟨trivial, fun f => ⟨rfl, rfl⟩⟩
  · subst htable
    exact copies_of_carries (fun _ => carries_sandboxes) row
  · rcases List.mem_append.mp hop with hop | hop
    · exact spares_indexed op hop
    · rw [List.mem_singleton.mp hop]
      trivial

theorem keeps_migrateTaskLinksDropKindCheck (hT : T ∈ rebuiltTables) : Keeps C migrateTaskLinksDropKindCheck := by
  refine Keeps.whenDue (fun last f hpoint hsettled => ?_) _ _
  refine through_renameScript (by decide) (ne_of_rebuilt hT (by decide)) (fun htable t _ row _ => ?_) spares_indexed
    hpoint hsettled
  subst htable
  exact copies_of_carries (fun _ => carries_taskLinks) row

theorem keeps_dropTableLevelUniqueOnCookbookShares (hT : T ∈ rebuiltTables) :
    Keeps C dropTableLevelUniqueOnCookbookShares := by
  refine Keeps.whenDue (fun last f hpoint hsettled => ?_) _ _
  rw [← List.append_nil (swapped ..)]
  refine keeps_swap (by decide) (ne_of_rebuilt hT (by decide)) (fun htable t _ row _ => ?_)
    (fun op hop => by cases hop) hpoint hsettled
  subst htable
  exact copies_of_carries (fun _ => carries_cookbookShares) row

theorem keeps_insertOrIgnore {table : String} (h : table ≠ T) (values : List (String × Option String)) :
    Keeps C (execute (.insertOrIgnore table values)) :=
  keeps_statement (show (SchemaOp.run (.insertOrIgnore table values)).Spares T from h)

theorem keeps_linkAccounts (hT : T ∈ rebuiltTables) (rows : List (String × Row)) : Keeps C (linkAccounts rows) := by
  induction rows with
  | nil => exact keeps_return ()
  | cons row rows ih =>
    have hsession : (Statement.update "sessions" [("sessions", "wallet_address"), ("sessions", "account_id")] fun _ =>
        sessionOf row.1 (row.2 "wallet_address")).Spares T := fun _ _ r => carry_session _ _ r
    exact (keeps_insertOrIgnore (ne_of_rebuilt hT (by decide)) _).bind fun _ =>
      (keeps_insertOrIgnore (ne_of_rebuilt hT (by decide)) _).bind fun _ => (keeps_execute hsession).bind fun _ => ih

theorem keeps_backfillAccountsFromIdentities (k : BootSetup) (hT : T ∈ rebuiltTables) :
    Keeps C (backfillAccountsFromIdentities k) := by
  refine (keeps_tableExists _).bind fun _ => .ite (keeps_return ()) ?_
  refine (keeps_tableExists _).bind fun _ => .ite (keeps_return ()) ?_
  refine (keeps_query : Keeps C (query unlinked)).bind fun rows => ?_
  cases rows with
  | none => exact keeps_raise _
  | some rows => exact keeps_linkAccounts hT _

/-- Every migration keeps what is claimed of the table. -/
theorem keeps_migrations (k : BootSetup) (hT : T ∈ rebuiltTables) : ∀ action ∈ migrations k, Keeps C action := by
  have hindex : ∀ index, Keeps C (execute (.createIndexIfNotExists index)) := fun index => keeps_execute trivial
  simp only [migrations, List.forall_mem_cons, List.not_mem_nil, false_imp_iff, implies_true, and_true,
    keeps_addColumnIfMissing, keeps_createTableIfMissing, keeps_createIndexIfMissing, hindex, keeps_commit,
    keeps_migrateEventsActorTypeHook hT, keeps_migrateBundlesGraphTerminalAt, keeps_migrateEventsAddTypes hT,
    keeps_backfillAccountsFromIdentities k hT, keeps_backfillBundleOwnerFromCreatedBy, keeps_backfillTaskUpdatedAt k,
    keeps_relaxSandboxesTaskId hT, keeps_dropTableLevelUniqueOnCookbookShares hT, keeps_backfillCookbookIdFromRecipe,
    keeps_relaxBundlesRecipeIdNullable hT, keeps_relaxEventsRecipeIdNullable hT,
    keeps_migrateEventsAddBundleLifecycleTypes hT, keeps_migrateBundlesAddClosedStatus hT,
    keeps_collapseBundlesStatusToOpenClosed hT, keeps_dropRecipeIdColumnsAndTables k hT,
    keeps_migrateTasksAddBlockedOnReviewStatus hT, keeps_migrateEventsAddOrchTypes hT,
    keeps_migrateTaskLinksDropKindCheck hT, true_and]
  exact keeps_dropIfThere (ne_of_rebuilt hT (by decide))

theorem keeps_inOrder {actions : List (SchemaM Unit)} (h : ∀ action ∈ actions, Keeps C action) :
    Keeps C (inOrder actions) := by
  induction actions with
  | nil => exact keeps_return ()
  | cons action actions ih =>
    exact (h action List.mem_cons_self).bind fun _ => ih fun a ha => h a (List.mem_cons_of_mem _ ha)

theorem keeps_initDb (k : BootSetup) (hT : T ∈ rebuiltTables) : Keeps C (initDb k) := by
  refine (keeps_inOrder (keeps_migrations k hT)).bind fun _ => ?_
  refine (keeps_executescript fun op hop => ?_).bind fun _ => keeps_commit
  rcases List.mem_append.mp hop with hop | hop
  · obtain ⟨table, -, rfl⟩ := List.mem_map.mp hop
    trivial
  · obtain ⟨index, -, rfl⟩ := List.mem_map.mp hop
    trivial

/-! ### Boots -/

/-- The table has every row, with its values in the columns that are carried over. -/
def RowsKept (T : String) (rows : List Row) (db : Database) : Prop :=
  ∃ t ∈ db.tables T, ∀ row ∈ rows, ∃ row' ∈ t.rows, Carry T row row'

def keptRows (T : String) (rows : List Row) : Claim T where
  there := True
  rows rs := ∀ row ∈ rows, ∃ row' ∈ rs, Carry T row row'
  carried := by
    intro rs f hcarry h row hrow
    obtain ⟨row', hrow', h'⟩ := h row hrow
    exact ⟨f row', List.mem_map_of_mem hrow', h'.trans (hcarry row' hrow')⟩
  vacant h := absurd trivial h

def noRows (T : String) : Claim T where
  there := False
  rows rs := rs = []
  carried := by
    rintro rs f - rfl
    rfl
  vacant _ := rfl

/-- Nothing is claimed. -/
def anyRows (T : String) : Claim T where
  there := False
  rows _ := True
  carried _ _ := trivial
  vacant _ := trivial

theorem holds_anyRows (db : Database) : (anyRows T).Holds db := ⟨False.elim, fun _ _ => trivial⟩

theorem holds_keptRows_iff {rows : List Row} {db : Database} : (keptRows T rows).Holds db ↔ RowsKept T rows db := by
  constructor
  · rintro ⟨hthere, h⟩
    obtain ⟨t, ht⟩ := Option.isSome_iff_exists.mp (hthere trivial)
    exact ⟨t, ht, h t ht⟩
  · rintro ⟨t, ht, h⟩
    exact Claim.holds_of_some ht h

theorem holds_noRows_iff {db : Database} : (noRows T).Holds db ↔ Bare T db :=
  ⟨fun h => h.2, fun h => ⟨False.elim, h⟩⟩

/-- The database after boots, each of which dies after so many statements or runs to its end. -/
def boots (runs : List (BootSetup × Nat)) (db : Database) : Database :=
  Coro.cutOff SchemaOp.exec connect DatabaseFile.disk initDb runs db

/-- The last statement of the boot has left the table's name without the rows. -/
def DiesUncovered (T : String) (k : BootSetup) (n : Nat) (db : Database) : Prop :=
  Uncovers T ((initDb k).lastBefore SchemaOp.exec n (connect db))

theorem point_boot (hT : T ∈ rebuiltTables) (k : BootSetup) (n : Nat) {db : Database} (h : C.Holds db) :
    Point C ((initDb k).lastBefore SchemaOp.exec n (connect db))
      ((initDb k).stateAfter SchemaOp.exec n (connect db)) := by
  have hpoint : Point C none (connect db) := point_of_not_uncovers (fun h => h) h
  have hcut := (keeps_initDb k hT none (connect db) hpoint ⟨h, h⟩).cut n
  rwa [Option.or_none] at hcut

/-- **A table that migrations rebuild has its rows after any boots exactly when no boot died right after a statement
that takes them from its name: it drops the table or renames it away outside of a transaction, creates it anew, or
fails to copy the rows back.** -/
theorem rows_survive_iff (hT : T ∈ rebuiltTables) {db : Database} {t : SqlTable} (ht : db.tables T = some t)
    (hrows : t.rows ≠ []) (runs : List (BootSetup × Nat)) :
    (RowsKept T t.rows (boots runs db) ↔
      ∀ before k n after, runs = before ++ (k, n) :: after → ¬ DiesUncovered T k n (boots before db)) ∧
      (T = "sandboxes" → RowsKept T t.rows (boots runs db)) := by
  have hpoint : ∀ k n db', RowsKept T t.rows db' → Point (keptRows T t.rows)
      ((initDb k).lastBefore SchemaOp.exec n (connect db')) ((initDb k).stateAfter SchemaOp.exec n (connect db')) :=
    fun k n db' h => point_boot hT k n (holds_keptRows_iff.mpr h)
  have hgone : ∀ k n db', Bare T db' → Bare T ((initDb k).stateAfter SchemaOp.exec n (connect db')).disk := by
    intro k n db' h
    have hbare := point_boot hT k n (holds_noRows_iff.mpr h)
    by_cases huncovers : Uncovers T ((initDb k).lastBefore SchemaOp.exec n (connect db'))
    · exact (hbare.1 huncovers).1
    · exact holds_noRows_iff.mp (hbare.2 huncovers)
  have hnot : ∀ db', Bare T db' → ¬ RowsKept T t.rows db' := by
    rintro db' hbare ⟨t', ht', hkept⟩
    obtain ⟨row, hrow⟩ := List.exists_mem_of_ne_nil _ hrows
    obtain ⟨row', hrow', -⟩ := hkept row hrow
    rw [hbare t' ht'] at hrow'
    cases hrow'
  have hiff := Coro.cutOff_iff (I := RowsKept T t.rows) (J := Bare T)
    (fun k n db' h hdies => holds_keptRows_iff.mp ((hpoint k n db' h).2 hdies))
    (fun k n db' h (hdies : DiesUncovered T k n db') => ((hpoint k n db' h).1 hdies).1) hgone hnot
    ⟨t, ht, fun row hrow => ⟨row, hrow, .refl row⟩⟩ runs
  refine ⟨hiff, fun hsandboxes => hiff.mpr fun before k n after _ hdies => ?_⟩
  exact ((point_boot hT k n (holds_anyRows _)).1 hdies).2 hsandboxes

/-! ### An old table of events -/

def oldEventsShape : Shape where
  primaryKey := ["id"]
  columns := [text "id", required "recipe_id", text "bundle_id", text "task_id", required "type",
    required "actor_id", among "actor_type" ["human", "agent", "system"], required "body", required "facts",
    required "code_refs", required "created_at", text "expires_at"]

def oldEvent : Row
  | "id" => some "evt_1"
  | "recipe_id" => some "rec_1"
  | "type" => some "prompt"
  | "actor_id" => some "acc_ada"
  | "actor_type" => some "human"
  | "body" => some "hello"
  | "facts" | "code_refs" => some "[]"
  | "created_at" => some "2025-01-01T00:00:00+00:00"
  | _ => none

def oldRecipe : Row
  | "id" => some "rec_1"
  | _ => none

def oldDatabase : Database where
  tables
    | "events" => some (oldEventsShape.holding [oldEvent])
    | "recipes" => some (Shape.holding ⟨[text "id"], ["id"], []⟩ [oldRecipe])
    | _ => none

def firstSetup : BootSetup where
  now := "2026-01-01T00:00:00+00:00"
  uuid n := toString n
  dropsColumns := true
  created _ := watchLogShape
  tables := []
  indexes := []

instance (stmt : Statement) (f : DatabaseFile) : Decidable (stmt.Uncovers T f) := by
  cases stmt <;> unfold Statement.Uncovers <;> dsimp only <;> infer_instance

instance : DecidablePred (Uncovers T) := by
  rintro (_ | ⟨_ | _ | _ | _ | _, _⟩) <;> unfold Uncovers <;> dsimp only <;> infer_instance

instance (k : BootSetup) (n : Nat) (db : Database) : Decidable (DiesUncovered T k n db) :=
  inferInstanceAs (Decidable (Uncovers T _))

/-- The boot dies when the table has given its name away. -/
theorem rows_survive_iff_oldEvents :
    ¬ RowsKept "events" (oldEventsShape.holding [oldEvent]).rows (boots [(firstSetup, 23)] oldDatabase) := by
  intro hkept
  have hiff := (rows_survive_iff (by decide) (show oldDatabase.tables "events" = some _ from rfl)
    (List.cons_ne_nil _ _) [(firstSetup, 23)]).1
  exact hiff.mp hkept [] firstSetup 23 [] rfl (by decide +kernel)

end Schema

end Krewhub
