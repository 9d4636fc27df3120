import Krewhub.Store.SqlTables

/-!
# The migrations of the schema

`run_migrations` and the start of the database. Columns are added where they are missing, and a table whose
constraints have changed is rebuilt: a second table takes the rows and then the name, or the table gives its name
to a new one and the rows follow. The tables that are only created are whatever they are, here and in the schema
script, which runs last.
-/

namespace Krewhub

namespace Schema

/-- What a boot is given: the time, an identifier for each account, whether SQLite can drop a column, the tables that
migrations create where they are missing, and the tables and indexes of the schema script. -/
structure BootSetup where
  now : String
  uuid : Nat → String
  dropsColumns : Bool
  created : String → Shape
  tables : List (String × Shape)
  indexes : List Index

/-! ### Columns, tables and indexes -/

def tableExists (table : String) : SchemaM Bool := query fun db => (db.tables table).isSome

/-- `SELECT sql FROM sqlite_master`. -/
def sqlOf (table : String) : SchemaM (Option Shape) := query fun db => (db.tables table).map (·.toShape)

/-- `PRAGMA table_info`. -/
def tableInfo (table : String) : SchemaM (List ColumnDef) :=
  query fun db => ((db.tables table).map (·.columns)).getD []

def addColumnIfMissing (table : String) (column : ColumnDef) : SchemaM Unit := do
  if !(← tableExists table) then return
  let columns ← tableInfo table
  if column.name ∈ columns.map (·.name) then return
  execute (.addColumn table column)

def createTableIfMissing (table : String) (shape : Shape) : SchemaM Unit := do
  if ← tableExists table then return
  executescript [.run (.createTableIfNotExists table shape)]

def createIndexIfMissing (name table : String) (columns : List String) : SchemaM Unit := do
  if !(← tableExists table) then return
  if ← query fun db => db.indexes.any (·.name == name) then return
  execute (.createIndexIfNotExists ⟨name, table, columns⟩)

def columnIsNullable (table column : String) : SchemaM Bool := do
  let columns ← tableInfo table
  return (columns.find? (·.name == column)).any (!·.notNull)

def text (name : String) : ColumnDef := { name }

def required (name : String) : ColumnDef := { name, notNull := true }

def defaulting (name default : String) : ColumnDef := { name, notNull := true, default := some default }

def referring (name table : String) : ColumnDef := { name, references := some (table, "id") }

/-- `TEXT NOT NULL CHECK(name IN (…))`. -/
def among (name : String) (allowed : List String) : ColumnDef := { name, notNull := true, allowed := some allowed }

/-! ### Rebuilding a table -/

def copied (columns : List String) : List (String × SelectExpr) := columns.map fun c => (c, .column c)

/-- A second table takes the rows and then the name. -/
def swapped (table temp : String) (shape : Shape) (columns : List (String × SelectExpr)) : List SchemaOp :=
  [.run (.createTable temp shape), .run (.insertSelect temp columns table), .run (.dropTable table),
    .run (.renameTable temp table)]

/-- The table gives its name to a new one, and the rows follow. -/
def renamedAway (table old : String) (shape : Shape) (columns : List (String × SelectExpr)) : List SchemaOp :=
  [.run (.renameTable table old), .run (.createTable table shape), .run (.insertSelect table columns old),
    .run (.dropTable old)]

def indexed (table : String) (indexes : List (String × List String)) : List SchemaOp :=
  indexes.map fun index => .run (.createIndexIfNotExists ⟨index.1, table, index.2⟩)

/-- The swap without enforced references, after what an earlier one may have left is dropped. -/
def guardedSwap (table temp : String) (shape : Shape) (indexes : List (String × List String))
    (columns : List String) : List SchemaOp :=
  [.foreignKeys false, .run (.dropTableIfExists temp)] ++ swapped table temp shape (copied columns) ++
    indexed table indexes ++ [.foreignKeys true]

/-- The script for the columns that the table has. -/
def rebuild (table : String) (script : List String → List SchemaOp) : SchemaM Unit := do
  let columns ← tableInfo table
  executescript (script (columns.map (·.name)))

def whenDue (table : String) (due : Shape → Bool) (action : SchemaM Unit) : SchemaM Unit := do
  if !(← tableExists table) then return
  match ← sqlOf table with
  | none => return
  | some shape => if due shape then action else return

/-! ### Events -/

def actorTypes : List String := ["human", "agent", "system", "hook"]

def eventIndexes : List (String × List String) :=
  [("idx_events_recipe", ["recipe_id"]), ("idx_events_bundle", ["bundle_id"]), ("idx_events_expires", ["expires_at"])]

def hookShape : Shape where
  primaryKey := ["id"]
  columns := [text "id", { name := "recipe_id", notNull := true, references := some ("recipes", "id") },
    referring "bundle_id" "bundles", text "task_id",
    among "type" ["prompt", "plan", "task_claimed", "milestone", "fact_added", "code_pushed", "digest_submitted",
      "digest_approved", "digest_rejected", "session_start", "session_end", "tool_use", "agent_reply"],
    required "actor_id", among "actor_type" actorTypes, defaulting "body" "", defaulting "facts" "[]",
    defaulting "code_refs" "[]", defaulting "payload" "\x7b\x7d", required "created_at", text "expires_at"]

def migrateEventsActorTypeHook : SchemaM Unit :=
  whenDue "events" (fun shape => !shape.mentions "hook") <|
    executescript <| renamedAway "events" "events_old_hook_migration" hookShape
      (copied ["id", "recipe_id", "bundle_id", "task_id", "type", "actor_id", "actor_type", "body", "facts",
        "code_refs"] ++ [("payload", .value "\x7b\x7d")] ++ copied ["created_at", "expires_at"]) ++
      indexed "events" eventIndexes

def moreTypesShape : Shape where
  primaryKey := ["id"]
  columns := [text "id", { name := "recipe_id", notNull := true, references := some ("recipes", "id") },
    referring "bundle_id" "bundles", text "task_id",
    among "type" ["prompt", "plan", "task_claimed", "task_working", "milestone", "fact_added", "code_pushed",
      "digest_submitted", "digest_approved", "digest_rejected", "session_start", "session_end", "tool_use",
      "tool_result", "agent_reply", "thinking"],
    required "actor_id", among "actor_type" actorTypes, defaulting "body" "", defaulting "payload" "\x7b\x7d",
    defaulting "sequence" "0", defaulting "facts" "[]", defaulting "code_refs" "[]", required "created_at",
    text "expires_at"]

def migrateEventsAddTypes : SchemaM Unit :=
  whenDue "events" (fun shape => !(shape.mentions "thinking" && shape.mentions "task_working")) <|
    executescript <| renamedAway "events" "events_old_types" moreTypesShape
      (copied ["id", "recipe_id", "bundle_id", "task_id", "type", "actor_id", "actor_type", "body"] ++
        [("payload", .coalesce "payload" "\x7b\x7d"), ("sequence", .value "0")] ++
        copied ["facts", "code_refs", "created_at", "expires_at"]) ++
      indexed "events" (eventIndexes ++ [("idx_events_task_sequence", ["task_id", "sequence"])])

/-- The table of the later rebuilds, with or without `recipe_id`. -/
def eventsShape (recipe : List ColumnDef) (types : List String) : Shape where
  primaryKey := ["id"]
  columns := [text "id"] ++ recipe ++ [referring "cookbook_id" "cookbooks", referring "bundle_id" "bundles",
    text "task_id", among "type" types, required "actor_id", among "actor_type" actorTypes, defaulting "body" "",
    defaulting "payload" "\x7b\x7d", defaulting "sequence" "0", defaulting "facts" "[]", defaulting "code_refs" "[]",
    defaulting "visibility" "system", required "created_at", text "expires_at"]

def relaxEventsRecipeIdNullable : SchemaM Unit := do
  if !(← tableExists "events") then return
  let columns ← tableInfo "events"
  if "recipe_id" ∉ columns.map (·.name) then return
  if ← columnIsNullable "events" "recipe_id" then return
  rebuild "events" fun columns =>
    swapped "events" "events_new" (eventsShape [referring "recipe_id" "recipes"]
      ["prompt", "plan", "task_claimed", "task_working", "milestone", "fact_added", "code_pushed",
        "digest_submitted", "digest_approved", "digest_rejected", "session_start", "session_end", "tool_use",
        "tool_result", "agent_reply", "thinking"]) (copied columns) ++
      indexed "events" [("idx_events_recipe", ["recipe_id"]), ("idx_events_cookbook", ["cookbook_id"]),
        ("idx_events_bundle", ["bundle_id"]), ("idx_events_task_sequence", ["task_id", "sequence"])]

def lifecycleTypes : List String :=
  ["prompt", "plan", "task_claimed", "task_working", "milestone", "fact_added", "code_pushed", "bundle_closed",
    "bundle_reopened", "session_start", "session_end", "tool_use", "tool_result", "agent_reply", "thinking"]

def orchTypes : List String := ["progress", "blocker", "needs_review", "needs_human", "log"]

def digestTypes : List String := ["digest_submitted", "digest_approved", "digest_rejected"]

def migrateEventsAddBundleLifecycleTypes : SchemaM Unit :=
  whenDue "events" (fun shape => !(shape.mentions "bundle_closed" && shape.mentions "needs_human")) <|
    rebuild "events" <| guardedSwap "events" "events_new"
      (eventsShape [referring "recipe_id" "recipes"] (lifecycleTypes ++ orchTypes ++ digestTypes))
      [("idx_events_recipe", ["recipe_id"]), ("idx_events_cookbook", ["cookbook_id"]),
        ("idx_events_bundle", ["bundle_id"]), ("idx_events_task_sequence", ["task_id", "sequence"])]

def migrateEventsAddOrchTypes : SchemaM Unit :=
  whenDue "events" (fun shape => !shape.mentions "needs_review") <|
    rebuild "events" <| guardedSwap "events" "events_new"
      (eventsShape [] (lifecycleTypes ++ digestTypes ++ orchTypes))
      [("idx_events_cookbook", ["cookbook_id"]), ("idx_events_bundle", ["bundle_id"]),
        ("idx_events_expires", ["expires_at"]), ("idx_events_task_sequence", ["task_id", "sequence"])]

/-! ### Bundles -/

/-- The table of the rebuilds, with or without `recipe_id`. -/
def bundlesShape (recipe : List ColumnDef) (statuses : List String) : Shape where
  primaryKey := ["id"]
  columns := [text "id"] ++ recipe ++ [referring "cookbook_id" "cookbooks", text "repo_spec", required "prompt",
    { name := "status", notNull := true, default := some "open", allowed := some statuses }, required "created_by",
    required "created_at", text "claimed_at", text "cooked_at", text "digested_at", text "graph_terminal_at",
    text "blocked_reason", text "graph_code", text "graph_mermaid", defaulting "resource_version" "1",
    defaulting "generation" "1", text "owner_account_id", text "default_agent_runtime_id", text "sandbox_id",
    defaulting "autoplan_enabled" "0"]

def bundleIndexes : List (String × List String) :=
  [("idx_bundles_cookbook", ["cookbook_id"]), ("idx_bundles_runnable", ["status"])]

/-- `UPDATE bundles SET graph_terminal_at = digested_at WHERE …`. -/
def graphTerminalAtFromDigestedAt (row : Row) : Row :=
  if (row "digested_at").isSome && (row "graph_terminal_at").isNone then
    row.set "graph_terminal_at" (row "digested_at")
  else row

def migrateBundlesGraphTerminalAt : SchemaM Unit := do
  if !(← tableExists "bundles") then return
  let columns ← tableInfo "bundles"
  if "graph_terminal_at" ∈ columns.map (·.name) then return
  execute (.addColumn "bundles" (text "graph_terminal_at"))
  execute (.update "bundles" [("bundles", "digested_at")] fun _ => graphTerminalAtFromDigestedAt)
  .perform .commit fun _ => ()

/-- `except aiosqlite.OperationalError`, which is passed over. -/
def tolerate (stmt : Statement) : SchemaM Unit := do
  match ← tryStatement (.run stmt) with
  | some .integrityError => .raise .integrityError
  | _ => return

/-- `UPDATE bundles SET owner_account_id = created_by WHERE …`. -/
def ownerFromCreatedBy (row : Row) : Row :=
  if (row "owner_account_id").isNone && (row "created_by").any (· != "") then
    row.set "owner_account_id" (row "created_by")
  else row

def backfillBundleOwnerFromCreatedBy : SchemaM Unit := do
  if !(← tableExists "bundles") then return
  let columns ← tableInfo "bundles"
  if "created_by" ∉ columns.map (·.name) ∨ "owner_account_id" ∉ columns.map (·.name) then return
  tolerate (.update "bundles" [] fun _ => ownerFromCreatedBy)

def relaxBundlesRecipeIdNullable : SchemaM Unit := do
  if !(← tableExists "bundles") then return
  let columns ← tableInfo "bundles"
  if "recipe_id" ∉ columns.map (·.name) then return
  if ← columnIsNullable "bundles" "recipe_id" then return
  rebuild "bundles" <| guardedSwap "bundles" "bundles_new"
    (bundlesShape [referring "recipe_id" "recipes"]
      ["open", "claimed", "cooked", "blocked", "cancelled", "digested", "rejected"])
    (("idx_bundles_recipe", ["recipe_id"]) :: bundleIndexes)

def migrateBundlesAddClosedStatus : SchemaM Unit :=
  whenDue "bundles" (fun shape => !shape.mentions "closed") <|
    rebuild "bundles" <| guardedSwap "bundles" "bundles_new"
      (bundlesShape [referring "recipe_id" "recipes"]
        ["open", "closed", "claimed", "cooked", "blocked", "cancelled", "digested", "rejected"])
      (("idx_bundles_recipe", ["recipe_id"]) :: bundleIndexes)

/-- `UPDATE bundles SET status = 'to' WHERE status IN (…)`. -/
def foldStatus (folded : List String) (status : String) (row : Row) : Row :=
  if (row "status").any (folded.contains ·) then row.set "status" (some status) else row

def collapseBundlesStatusToOpenClosed : SchemaM Unit :=
  whenDue "bundles" (fun shape => shape.mentions "claimed" || shape.mentions "cooked") do
    execute (.update "bundles" [] fun _ => foldStatus ["claimed", "cooked", "blocked"] "open")
    execute (.update "bundles" [] fun _ => foldStatus ["cancelled", "digested", "rejected"] "closed")
    rebuild "bundles" <| guardedSwap "bundles" "bundles_new"
      (bundlesShape [referring "recipe_id" "recipes"] ["open", "closed"])
      (("idx_bundles_recipe", ["recipe_id"]) :: bundleIndexes)

/-! ### Recipes -/

/-- The first row with a value in a column. -/
def Database.firstWith (db : Database) (table column : String) (value : Option String) : Option Row :=
  (db.tables table).bind fun t => t.rows.find? fun row => value.isSome && row column == value

/-- `UPDATE … SET cookbook_id = (SELECT r.cookbook_id FROM recipes r …) WHERE …`. -/
def cookbookFromRecipe (db : Database) (row : Row) : Row :=
  if (row "cookbook_id").isNone && (row "recipe_id").isSome then
    row.set "cookbook_id" ((db.firstWith "recipes" "id" (row "recipe_id")).bind (· "cookbook_id"))
  else row

def backfillCookbookId (table : String) : SchemaM Unit := do
  if !(← tableExists table) then return
  let columns ← tableInfo table
  if "cookbook_id" ∉ columns.map (·.name) ∨ "recipe_id" ∉ columns.map (·.name) then return
  tolerate (.update table [("recipes", "id"), ("recipes", "cookbook_id")] cookbookFromRecipe)

def backfillCookbookIdFromRecipe : SchemaM Unit := do
  if !(← tableExists "recipes") then return
  backfillCookbookId "bundles"
  backfillCookbookId "events"
  backfillCookbookId "watch_log"

def watchLogShape : Shape where
  primaryKey := ["seq"]
  columns := [text "seq", required "resource_type", required "resource_id",
    among "event_type" ["ADDED", "MODIFIED", "DELETED"], required "resource_version", defaulting "payload" "\x7b\x7d",
    text "cookbook_id", required "created_at"]

def dropBundlesRecipeId : SchemaM Unit := do
  let columns ← tableInfo "bundles"
  if "recipe_id" ∉ columns.map (·.name) then return
  executescript <| guardedSwap "bundles" "bundles_new" (bundlesShape [] ["open", "closed"]) bundleIndexes
    ((columns.map (·.name)).filter (· ≠ "recipe_id"))

def dropEventsRecipeId : SchemaM Unit := do
  if !(← tableExists "events") then return
  let columns ← tableInfo "events"
  if "recipe_id" ∉ columns.map (·.name) then return
  executescript <| guardedSwap "events" "events_new" (eventsShape [] (lifecycleTypes ++ digestTypes))
    [("idx_events_cookbook", ["cookbook_id"]), ("idx_events_bundle", ["bundle_id"]),
      ("idx_events_task_sequence", ["task_id", "sequence"])]
    ((columns.map (·.name)).filter (· ≠ "recipe_id"))

/-- `ALTER TABLE watch_log DROP COLUMN recipe_id`, which an old SQLite does not know. -/
def tryDropColumn (k : BootSetup) : SchemaM (Option SqlError) :=
  if k.dropsColumns then tryStatement (.run (.dropColumn "watch_log" "recipe_id"))
  else query fun _ => some .operationalError

/-- The column is dropped where SQLite can and will, else the table is rebuilt. -/
def dropWatchLogRecipeId (k : BootSetup) : SchemaM Unit := do
  if !(← tableExists "watch_log") then return
  let columns ← tableInfo "watch_log"
  if "recipe_id" ∉ columns.map (·.name) then return
  match ← tryDropColumn k with
  | none => return
  | some .integrityError => .raise .integrityError
  | some .operationalError =>
    executescript <| swapped "watch_log" "watch_log_new" watchLogShape
        (copied ((columns.map (·.name)).filter (· ≠ "recipe_id"))) ++
      indexed "watch_log" [("idx_watch_log_type_seq", ["resource_type", "seq"]),
        ("idx_watch_log_cookbook_seq", ["cookbook_id", "seq"])]

def dropIfThere (table : String) : SchemaM Unit := do
  if ← tableExists table then execute (.dropTableIfExists table)

def dropRecipeIdColumnsAndTables (k : BootSetup) : SchemaM Unit := do
  if !(← tableExists "bundles") then return
  dropBundlesRecipeId
  dropEventsRecipeId
  dropWatchLogRecipeId k
  dropIfThere "recipe_members"
  dropIfThere "recipes"

/-! ### The other tables -/

def tasksShape : Shape where
  primaryKey := ["id"]
  columns := [text "id", { name := "bundle_id", notNull := true, references := some ("bundles", "id") },
    required "title", text "description",
    { name := "status", notNull := true, default := some "open",
      allowed := some ["open", "claimed", "working", "done", "blocked", "cancelled", "blocked_on_review"] },
    defaulting "depends_on_task_ids" "[]", text "assigned_agent_id", text "claimed_by_agent_id", text "claimed_at",
    text "completed_at", text "blocked_reason", text "graph_node_id", defaulting "resource_version" "1",
    defaulting "generation" "1", text "progress_json", text "session_id", text "work_dir", text "artifacts_json",
    text "session_token", text "assigned_runtime_id", text "sandbox_id", text "brief_json", text "report_json",
    text "orch_json", text "created_by_task", text "updated_at"]

def migrateTasksAddBlockedOnReviewStatus : SchemaM Unit :=
  whenDue "tasks" (fun shape => !shape.mentions "blocked_on_review") <|
    rebuild "tasks" <| guardedSwap "tasks" "tasks_new" tasksShape
      [("idx_tasks_bundle", ["bundle_id"]), ("idx_tasks_assigned", ["assigned_agent_id"]),
        ("idx_tasks_node", ["bundle_id", "graph_node_id"])]

/-- `UPDATE tasks SET updated_at = COALESCE(…) WHERE updated_at IS NULL`. -/
def updatedAtOr (now : String) (db : Database) (row : Row) : Row :=
  if (row "updated_at").isNone then
    row.set "updated_at" (some (((row "completed_at" <|> row "claimed_at") <|>
      (db.firstWith "bundles" "id" (row "bundle_id")).bind (· "created_at")).getD now))
  else row

def backfillTaskUpdatedAt (k : BootSetup) : SchemaM Unit := do
  if !(← tableExists "tasks") then return
  if !(← tableExists "bundles") then return
  execute (.update "tasks" [("tasks", "completed_at"), ("tasks", "claimed_at"), ("bundles", "created_at"),
    ("bundles", "id"), ("tasks", "bundle_id")] (updatedAtOr k.now))
  .perform .commit fun _ => ()

def sandboxesShape : Shape where
  primaryKey := ["id"]
  columns := [text "id", text "task_id", text "bundle_id", required "owner_account_id", required "e2b_sandbox_id",
    required "template", required "status", required "created_at", required "updated_at", text "terminated_at",
    text "last_event_at"]

/-- Whether the table has a column `task_id`, and whatever column is not null or refers to a table. -/
def relaxSandboxesTaskId : SchemaM Unit :=
  whenDue "sandboxes" (fun shape => shape.names.contains "task_id" &&
      shape.columns.any fun c => c.notNull || c.references.isSome) <|
    executescript <| [.begin] ++ swapped "sandboxes" "sandboxes_new" sandboxesShape (copied sandboxesShape.names) ++
      indexed "sandboxes" [("idx_sandboxes_status_last_event", ["status", "last_event_at"])] ++ [.commit]

def taskLinksShape : Shape where
  primaryKey := ["id"]
  columns := [text "id", required "bundle_id", required "from_task_id", required "to_task_id", required "kind",
    defaulting "payload_map" "\x7b\x7d", required "created_by_account", text "created_by_task", required "created_at",
    text "fired_at", text "revoked_at"]

def migrateTaskLinksDropKindCheck : SchemaM Unit :=
  whenDue "task_links" (fun shape => shape.columns.any fun c => c.name == "kind" && c.allowed.isSome) <|
    executescript <| renamedAway "task_links" "task_links_old_kind_migration" taskLinksShape
        (copied taskLinksShape.names) ++
      indexed "task_links" [("idx_task_links_from", ["from_task_id"]), ("idx_task_links_to", ["to_task_id"]),
        ("idx_task_links_bundle", ["bundle_id"])]

def cookbookSharesShape : Shape where
  primaryKey := ["id"]
  columns := [text "id", { name := "cookbook_id", notNull := true, references := some ("cookbooks", "id") },
    { name := "shared_with_account_id", notNull := true, references := some ("accounts", "id") },
    among "role" ["owner", "member", "viewer"],
    { name := "shared_by_account_id", notNull := true, references := some ("accounts", "id") },
    required "shared_at", text "revoked_at"]

def dropTableLevelUniqueOnCookbookShares : SchemaM Unit :=
  whenDue "cookbook_shares" (fun shape => shape.unique.any fun columns => columns.head? == some "cookbook_id") <|
    executescript <| swapped "cookbook_shares" "cookbook_shares_new" cookbookSharesShape
      (copied cookbookSharesShape.names)

def dropDigestsTable : SchemaM Unit := dropIfThere "digests"

/-! ### Accounts -/

/-- The identities without a link; none where a table is missing. -/
def unlinked (db : Database) : Option (List Row) := do
  let identities ← db.tables "identities"
  let links ← db.tables "wallet_links"
  return identities.rows.filter fun row => links.rows.all fun link => link "wallet_address" != row "wallet_address"

/-- `UPDATE sessions SET account_id = ? WHERE wallet_address = ? AND account_id IS NULL`. -/
def sessionOf (accountId : String) (wallet : Option String) (row : Row) : Row :=
  if row "wallet_address" == wallet && wallet.isSome && (row "account_id").isNone then
    row.set "account_id" (some accountId)
  else row

def linkAccounts : List (String × Row) → SchemaM Unit
  | [] => return
  | (accountId, row) :: rest => do
    execute (.insertOrIgnore "accounts" [("id", some accountId), ("display_name", row "display_name"),
      ("created_at", row "created_at"), ("updated_at", row "created_at")])
    execute (.insertOrIgnore "wallet_links" [("wallet_address", row "wallet_address"), ("account_id", some accountId),
      ("is_primary", some "1"), ("linked_at", row "created_at")])
    execute (.update "sessions" [("sessions", "wallet_address"), ("sessions", "account_id")] fun _ =>
      sessionOf accountId (row "wallet_address"))
    linkAccounts rest

def backfillAccountsFromIdentities (k : BootSetup) : SchemaM Unit := do
  if !(← tableExists "identities") then return
  if !(← tableExists "accounts") then return
  match ← query unlinked with
  | none => .raise .operationalError
  | some rows => linkAccounts (rows.zipIdx.map fun row => ("acc_" ++ k.uuid row.2, row.1))

/-! ### A boot -/

/-- The migrations, in order. -/
def migrations (k : BootSetup) : List (SchemaM Unit) :=
  [addColumnIfMissing "bundles" (defaulting "resource_version" "1"),
    addColumnIfMissing "bundles" (defaulting "generation" "1"),
    addColumnIfMissing "tasks" (defaulting "resource_version" "1"),
    addColumnIfMissing "tasks" (defaulting "generation" "1"),
    addColumnIfMissing "tasks" (text "assigned_agent_id"),
    addColumnIfMissing "agent_presence" (defaulting "resource_version" "1"),
    addColumnIfMissing "agent_presence" (defaulting "max_concurrent_tasks" "1"),
    addColumnIfMissing "agent_presence" (text "endpoint_url"),
    addColumnIfMissing "digests" (defaulting "resource_version" "1"),
    addColumnIfMissing "digests" (defaulting "generation" "1"),
    createTableIfMissing "watch_log" (k.created "watch_log"),
    createIndexIfMissing "idx_watch_log_type_seq" "watch_log" ["resource_type", "seq"],
    createIndexIfMissing "idx_tasks_assigned" "tasks" ["assigned_agent_id"],
    addColumnIfMissing "agent_presence" (defaulting "cookbook_id" ""),
    addColumnIfMissing "cookbooks" (text "repo_path"),
    migrateEventsActorTypeHook,
    addColumnIfMissing "events" (defaulting "payload" "\x7b\x7d"),
    addColumnIfMissing "bundles" (text "graph_code"),
    addColumnIfMissing "bundles" (text "graph_mermaid"),
    migrateBundlesGraphTerminalAt,
    addColumnIfMissing "tasks" (text "graph_node_id"),
    createIndexIfMissing "idx_tasks_node" "tasks" ["bundle_id", "graph_node_id"],
    addColumnIfMissing "agent_presence" (text "owner_username"),
    addColumnIfMissing "events" (defaulting "sequence" "0"),
    createIndexIfMissing "idx_events_task_sequence" "events" ["task_id", "sequence"],
    migrateEventsAddTypes,
    createTableIfMissing "identities" (k.created "identities"),
    createTableIfMissing "sessions" (k.created "sessions"),
    createIndexIfMissing "idx_sessions_wallet" "sessions" ["wallet_address"],
    createIndexIfMissing "idx_sessions_expires" "sessions" ["expires_at"],
    createTableIfMissing "nonces" (k.created "nonces"),
    createIndexIfMissing "idx_nonces_expires" "nonces" ["expires_at"],
    createTableIfMissing "device_codes" (k.created "device_codes"),
    createIndexIfMissing "idx_device_codes_user" "device_codes" ["user_code"],
    createTableIfMissing "accounts" (k.created "accounts"),
    createTableIfMissing "wallet_links" (k.created "wallet_links"),
    createIndexIfMissing "idx_wallet_links_account" "wallet_links" ["account_id"],
    createTableIfMissing "passkeys" (k.created "passkeys"),
    createIndexIfMissing "idx_passkeys_account" "passkeys" ["account_id"],
    createTableIfMissing "passkey_challenges" (k.created "passkey_challenges"),
    addColumnIfMissing "sessions" (text "account_id"),
    addColumnIfMissing "device_codes" (text "account_id"),
    backfillAccountsFromIdentities k,
    createTableIfMissing "a2a_agent_cards" (k.created "a2a_agent_cards"),
    createTableIfMissing "a2a_invocations" (k.created "a2a_invocations"),
    createIndexIfMissing "idx_a2a_invocations_agent" "a2a_invocations" ["owner", "agent_name", "status"],
    createIndexIfMissing "idx_a2a_invocations_expires" "a2a_invocations" ["expires_at"],
    addColumnIfMissing "agent_presence" (text "mint_tx_hash"),
    addColumnIfMissing "agent_presence" (text "mint_token_id"),
    addColumnIfMissing "agent_presence" (text "aa_wallet_address"),
    addColumnIfMissing "tasks" (text "progress_json"),
    addColumnIfMissing "tasks" (text "session_id"),
    addColumnIfMissing "tasks" (text "work_dir"),
    addColumnIfMissing "tasks" (text "artifacts_json"),
    addColumnIfMissing "events" (defaulting "visibility" "system"),
    addColumnIfMissing "tasks" (text "session_token"),
    addColumnIfMissing "bundles" (text "owner_account_id"),
    addColumnIfMissing "bundles" (text "default_agent_runtime_id"),
    backfillBundleOwnerFromCreatedBy,
    addColumnIfMissing "tasks" (text "assigned_runtime_id"),
    addColumnIfMissing "tasks" (text "sandbox_id"),
    addColumnIfMissing "tasks" (text "updated_at"),
    backfillTaskUpdatedAt k,
    addColumnIfMissing "bundles" (text "sandbox_id"),
    addColumnIfMissing "sandboxes" (text "bundle_id"),
    relaxSandboxesTaskId,
    addColumnIfMissing "bundles" (defaulting "autoplan_enabled" "0"),
    createTableIfMissing "invocations" (k.created "invocations"),
    execute (.createIndexIfNotExists ⟨"idx_invocations_idempotency", "invocations",
      ["parent_tape_id", "idempotency_key"]⟩),
    createIndexIfMissing "idx_invocations_status" "invocations" ["status"],
    createIndexIfMissing "idx_invocations_target" "invocations" ["target_type", "target_id"],
    addColumnIfMissing "invocations" (text "task_id"),
    createIndexIfMissing "idx_invocations_task" "invocations" ["task_id"],
    createTableIfMissing "invocation_events" (k.created "invocation_events"),
    createIndexIfMissing "idx_invocation_events_kind" "invocation_events" ["kind"],
    createTableIfMissing "tape_forks" (k.created "tape_forks"),
    createIndexIfMissing "idx_tape_forks_parent" "tape_forks" ["parent_tape_id"],
    addColumnIfMissing "bundles" (text "cookbook_id"),
    addColumnIfMissing "bundles" (text "repo_spec"),
    addColumnIfMissing "events" (text "cookbook_id"),
    addColumnIfMissing "watch_log" (text "cookbook_id"),
    createIndexIfMissing "idx_bundles_cookbook" "bundles" ["cookbook_id"],
    createIndexIfMissing "idx_events_cookbook" "events" ["cookbook_id"],
    createIndexIfMissing "idx_watch_log_cookbook_seq" "watch_log" ["cookbook_id", "seq"],
    createTableIfMissing "cookbook_shares" (k.created "cookbook_shares"),
    dropTableLevelUniqueOnCookbookShares,
    createIndexIfMissing "idx_cookbook_shares_cookbook" "cookbook_shares" ["cookbook_id"],
    createIndexIfMissing "idx_cookbook_shares_account" "cookbook_shares" ["shared_with_account_id"],
    execute (.createIndexIfNotExists ⟨"idx_cookbook_shares_unique_active", "cookbook_shares",
      ["cookbook_id", "shared_with_account_id"]⟩),
    createTableIfMissing "repo_grants" (k.created "repo_grants"),
    createIndexIfMissing "idx_repo_grants_cookbook" "repo_grants" ["cookbook_id"],
    createIndexIfMissing "idx_repo_grants_active" "repo_grants" ["cookbook_id", "provider"],
    backfillCookbookIdFromRecipe,
    relaxBundlesRecipeIdNullable,
    relaxEventsRecipeIdNullable,
    dropDigestsTable,
    migrateEventsAddBundleLifecycleTypes,
    migrateBundlesAddClosedStatus,
    collapseBundlesStatusToOpenClosed,
    dropRecipeIdColumnsAndTables k,
    createTableIfMissing "elicits" (k.created "elicits"),
    createIndexIfMissing "idx_elicits_invocation_status" "elicits" ["invocation_id", "status"],
    addColumnIfMissing "tasks" (text "brief_json"),
    addColumnIfMissing "tasks" (text "report_json"),
    migrateTasksAddBlockedOnReviewStatus,
    migrateEventsAddOrchTypes,
    addColumnIfMissing "tasks" (text "orch_json"),
    addColumnIfMissing "tasks" (text "created_by_task"),
    createTableIfMissing "task_reviews" (k.created "task_reviews"),
    createIndexIfMissing "idx_task_reviews_task" "task_reviews" ["task_id", "decided_at"],
    createTableIfMissing "task_links" (k.created "task_links"),
    createIndexIfMissing "idx_task_links_from" "task_links" ["from_task_id"],
    createIndexIfMissing "idx_task_links_to" "task_links" ["to_task_id"],
    createIndexIfMissing "idx_task_links_bundle" "task_links" ["bundle_id"],
    migrateTaskLinksDropKindCheck,
    .perform .commit fun _ => ()]

def inOrder : List (SchemaM Unit) → SchemaM Unit
  | [] => return
  | action :: rest => do
    action
    inOrder rest

def runMigrations (k : BootSetup) : SchemaM Unit := inOrder (migrations k)

def schemaSql (k : BootSetup) : List SchemaOp :=
  (k.tables.map fun table => .run (.createTableIfNotExists table.1 table.2)) ++
    k.indexes.map fun index => .run (.createIndexIfNotExists index)

def initDb (k : BootSetup) : SchemaM Unit := do
  runMigrations k
  executescript (schemaSql k)
  .perform .commit fun _ => ()

/-- The connection of a new process. -/
def connect (disk : Database) : DatabaseFile where
  live := disk
  disk := disk

end Schema

end Krewhub
