import Krewhub.Store.Repositories

/-!
# The marker of finished graphs

`_migrate_bundles_graph_terminal_at` adds the column `graph_terminal_at` and fills it from `digested_at`. It
is guarded by the column it adds: SQLite has the column on the disk as soon as the `ALTER TABLE` executes,
the `UPDATE` waits for the commit, so a crash between the two leaves a column that no later boot fills.
-/

namespace Krewhub

/-! ### The table before the upgrade -/

/-- The values of `bundles.status` before the statuses were folded into two. -/
inductive LegacyStatus where
  | open_
  | closed
  | claimed
  | cooked
  | blocked
  | cancelled
  | digested
  | rejected
  deriving DecidableEq, Repr

/-- `_collapse_bundles_status_to_open_closed`. -/
def LegacyStatus.collapse : LegacyStatus → BundleStatus
  | open_ | claimed | cooked | blocked => .open_
  | closed | cancelled | digested | rejected => .closed

/-- The columns of a bundle that the migration and `list_runnable` look at. -/
structure LegacyBundle where
  id : String
  status : LegacyStatus := .open_
  createdAt : Nat := 0
  digestedAt : Option Nat := none
  blockedReason : Option String := none
  graphCode : Option String := none
  deriving DecidableEq, Repr

instance : Keyed LegacyBundle := ⟨LegacyBundle.id⟩

/-- The table `bundles`: its rows, and the column `graph_terminal_at` once it is there. -/
structure BundlesTable where
  rows : Table LegacyBundle
  graphTerminalAt : Option (String → Option Nat) := none

namespace BundlesTable

/-- `UPDATE bundles SET graph_terminal_at = digested_at WHERE …`. -/
def backfill (t : BundlesTable) : BundlesTable where
  rows := t.rows
  graphTerminalAt := t.graphTerminalAt.map fun column id =>
    column id <|> (t.rows.get id).bind (·.digestedAt)

/-- The row as the repository reads it once the migrations have run. -/
def toBundle (t : BundlesTable) (b : LegacyBundle) : Bundle where
  id := b.id
  status := b.status.collapse
  createdAt := b.createdAt
  digestedAt := b.digestedAt
  blockedReason := b.blockedReason
  graphCode := b.graphCode
  graphTerminalAt := t.graphTerminalAt.bind fun column => column b.id

theorem nodup_toBundle (t : BundlesTable) : ((t.rows.rows.map t.toBundle).map key).Nodup := by
  rw [List.map_map]
  exact t.rows.nodup

/-- The database the controllers start on. -/
def toDb (t : BundlesTable) : Db where
  bundles := ⟨t.rows.rows.map t.toBundle, t.nodup_toBundle⟩

end BundlesTable

/-! ### The migration -/

/-- The database file as the connection shows it, and as it is on the disk. -/
structure DatabaseFile where
  live : Option BundlesTable
  disk : Option BundlesTable

inductive MigrationOp where
  | select
  | addColumn
  | backfill
  | commit
  deriving DecidableEq, Repr

namespace MigrationOp

/-- No transaction is open when the `ALTER TABLE` executes, so it is on the disk at once; the `UPDATE` opens
one. -/
def exec (op : MigrationOp) (f : DatabaseFile) : DatabaseFile :=
  match op with
  | .select => f
  | .addColumn =>
    let altered := f.live.map fun t => { t with graphTerminalAt := some fun _ => none }
    ⟨altered, altered⟩
  | .backfill => { f with live := f.live.map BundlesTable.backfill }
  | .commit => { f with disk := f.live }

end MigrationOp

/-- `_migrate_bundles_graph_terminal_at`. -/
def migrateBundlesGraphTerminalAt : Coro DatabaseFile MigrationOp Exn Unit := do
  if !(← .perform .select fun f => f.live.isSome) then return
  if ← .perform .select fun f => f.live.any (·.graphTerminalAt.isSome) then return
  .perform .addColumn fun _ => ()
  .perform .backfill fun _ => ()
  .perform .commit fun _ => ()

/-- What is on the disk after a boot that the process does not survive: `k` statements of the migration have
executed. -/
def crashedBoot (disk : Option BundlesTable) (k : Nat) : Option BundlesTable :=
  (Coro.stateAfter MigrationOp.exec k migrateBundlesGraphTerminalAt ⟨disk, disk⟩).disk

/-- What is on the disk after a boot. -/
def boot (disk : Option BundlesTable) : Option BundlesTable :=
  (migrateBundlesGraphTerminalAt.run MigrationOp.exec ⟨disk, disk⟩).2.disk

/-- The disk after boots that crash, each after some of the statements, and one that does not. -/
def upgrade (rows : Table LegacyBundle) (crashes : List Nat) : Option BundlesTable :=
  boot (crashes.foldl crashedBoot (some { rows }))

/-- No bundle that had been digested before the upgrade is among those the runner starts on after it. -/
def NeverReruns (rows : Table LegacyBundle) (crashes : List Nat) : Prop :=
  ∀ b ∈ rows, b.digestedAt.isSome = true →
    ∃ t ∈ upgrade rows crashes, ∃ runnable,
      BundleRepo.listRunnable.run Op.exec t.toDb = (.ok runnable, t.toDb) ∧
        ∀ r ∈ runnable, r.id ≠ b.id

/-! ### What a boot leaves -/

section Boots

variable {rows : Table LegacyBundle} {column : String → Option Nat}

/-- The column after the backfill. -/
def digested (rows : Table LegacyBundle) (id : String) : Option Nat :=
  (rows.get id).bind (·.digestedAt)

theorem crashedBoot_of_column (k : Nat) :
    crashedBoot (some ⟨rows, some column⟩) k = some ⟨rows, some column⟩ := by
  match k with
  | 0 | 1 => rfl
  | k + 2 =>
    have hend := Coro.stateAfter_done (ε := Exn) MigrationOp.exec k ()
      ⟨some ⟨rows, some column⟩, some ⟨rows, some column⟩⟩
    exact congrArg DatabaseFile.disk hend

theorem crashedBoot_before {k : Nat} (hk : k < 3) : crashedBoot (some ⟨rows, none⟩) k = some ⟨rows, none⟩ := by
  match k with
  | 0 | 1 | 2 => rfl

theorem crashedBoot_between {k : Nat} (hk : k = 3 ∨ k = 4) :
    crashedBoot (some ⟨rows, none⟩) k = some ⟨rows, some fun _ => none⟩ := by
  rcases hk with rfl | rfl <;> rfl

theorem crashedBoot_after {k : Nat} (hk : 5 ≤ k) :
    crashedBoot (some ⟨rows, none⟩) k = some ⟨rows, some (digested rows)⟩ := by
  obtain ⟨k, rfl⟩ := Nat.exists_eq_add_of_le' hk
  have hend := Coro.stateAfter_done (ε := Exn) MigrationOp.exec k ()
    ⟨some ⟨rows, some (digested rows)⟩, some ⟨rows, some (digested rows)⟩⟩
  exact congrArg DatabaseFile.disk hend

theorem boot_of_column : boot (some ⟨rows, some column⟩) = some ⟨rows, some column⟩ := rfl

theorem boot_of_none : boot (some ⟨rows, none⟩) = some ⟨rows, some (digested rows)⟩ := rfl

/-- A boot has died between the column and the commit of its values, and none before had got that far. -/
def CutShort (crashes : List Nat) : Prop :=
  ∃ k, crashes.find? (3 ≤ ·) = some k ∧ k < 5

instance (crashes : List Nat) : Decidable (CutShort crashes) :=
  decidable_of_iff ((crashes.find? (3 ≤ ·)).any (· < 5) = true) (by
    rw [CutShort, Option.any_eq_true]
    simp only [decide_eq_true_eq])

theorem cutShort_cons_of_before {k : Nat} (hk : k < 3) (crashes : List Nat) :
    CutShort (k :: crashes) ↔ CutShort crashes := by
  rw [CutShort, CutShort, List.find?_cons_of_neg (by simpa using hk)]

theorem cutShort_cons_of_reached {k : Nat} (hk : 3 ≤ k) (crashes : List Nat) :
    CutShort (k :: crashes) ↔ k < 5 := by
  rw [CutShort, List.find?_cons_of_pos (by simpa using hk)]
  simp

theorem upgrade_of_column (crashes : List Nat) :
    boot (crashes.foldl crashedBoot (some ⟨rows, some column⟩)) = some ⟨rows, some column⟩ := by
  induction crashes with
  | nil => exact boot_of_column
  | cons k crashes ih =>
    rw [List.foldl_cons, crashedBoot_of_column]
    exact ih

/-- Whatever the crashes, the column is empty for good when one has cut the migration short, and filled
otherwise. -/
theorem upgrade_eq (rows : Table LegacyBundle) (crashes : List Nat) :
    upgrade rows crashes =
      some ⟨rows, some (if CutShort crashes then fun _ => none else digested rows)⟩ := by
  rw [upgrade]
  induction crashes with
  | nil => exact boot_of_none
  | cons k crashes ih =>
    rw [List.foldl_cons]
    by_cases hbefore : k < 3
    · rw [crashedBoot_before hbefore, ih]
      simp only [cutShort_cons_of_before hbefore]
    · have hreached := cutShort_cons_of_reached (Nat.le_of_not_lt hbefore) crashes
      by_cases hbetween : k < 5
      · rw [crashedBoot_between (by omega), upgrade_of_column, if_pos (hreached.mpr hbetween)]
      · rw [crashedBoot_after (by omega), upgrade_of_column, if_neg (mt hreached.mp hbetween)]

end Boots

/-! ### What the runner starts on -/

/-- The runner would start on the bundle if nothing marked it as finished. -/
def LegacyBundle.WouldRun (b : LegacyBundle) : Prop :=
  b.graphCode.isSome = true ∧ b.status.collapse = .open_ ∧ b.blockedReason = none

theorem isRunnable_toBundle_iff {t : BundlesTable} {b : LegacyBundle} :
    BundleRepo.isRunnable (t.toBundle b) = true ↔
      b.WouldRun ∧ (t.graphTerminalAt.bind fun column => column b.id) = none := by
  simp only [BundleRepo.isRunnable, BundlesTable.toBundle, LegacyBundle.WouldRun, Bool.and_eq_true,
    beq_iff_eq, Option.isNone_iff_eq_none]
  tauto

theorem exists_run_listRunnable (db : Db) :
    ∃ runnable, BundleRepo.listRunnable.run Op.exec db = (.ok runnable, db) ∧
      ∀ b, b ∈ runnable ↔ b ∈ db.bundles ∧ BundleRepo.isRunnable b = true := by
  refine ⟨_, Sql.run_select _ db, fun b => ?_⟩
  rw [List.mem_mergeSort, List.mem_filter]
  rfl

theorem mem_toDb_bundles {t : BundlesTable} {r : Bundle} :
    r ∈ t.toDb.bundles ↔ ∃ b ∈ t.rows, t.toBundle b = r := List.mem_map

/-- The table leaves a bundle out of the runner's list exactly when it would not run or has a value in the
column. -/
theorem leavesOut_iff {rows : Table LegacyBundle} {crashes : List Nat} {column : String → Option Nat}
    (hupgrade : upgrade rows crashes = some ⟨rows, some column⟩) {b : LegacyBundle} (hb : b ∈ rows) :
    (∃ t ∈ upgrade rows crashes, ∃ runnable,
      BundleRepo.listRunnable.run Op.exec t.toDb = (.ok runnable, t.toDb) ∧
        ∀ r ∈ runnable, r.id ≠ b.id) ↔ ¬ (b.WouldRun ∧ column b.id = none) := by
  obtain ⟨runnable, hrun, hmem⟩ := exists_run_listRunnable (BundlesTable.mk rows (some column)).toDb
  rw [hupgrade]
  constructor
  · rintro ⟨t, ht, runnable', hrun', hout⟩ hruns
    obtain rfl := Option.some.inj ht
    obtain rfl : runnable = runnable' := by
      rw [hrun] at hrun'
      exact Except.ok.inj (Prod.ext_iff.mp hrun').1
    refine hout _ ((hmem _).mpr ⟨mem_toDb_bundles.mpr ⟨b, hb, rfl⟩, ?_⟩) rfl
    exact isRunnable_toBundle_iff.mpr hruns
  · intro hnot
    refine ⟨_, rfl, runnable, hrun, fun r hr hid => ?_⟩
    obtain ⟨hr, hrunnable⟩ := (hmem r).mp hr
    obtain ⟨b', hb', rfl⟩ := mem_toDb_bundles.mp hr
    obtain rfl := Table.eq_of_key_eq hb' hb hid
    exact hnot (isRunnable_toBundle_iff.mp hrunnable)

/-- Whatever the table and the crashes: no digested bundle is run again exactly when no boot has been cut
short, or no digested bundle would run anyway. -/
theorem neverReruns_iff (rows : Table LegacyBundle) (crashes : List Nat) :
    NeverReruns rows crashes ↔
      ¬ CutShort crashes ∨ ∀ b ∈ rows, b.digestedAt.isSome = true → ¬ b.WouldRun := by
  by_cases hcut : CutShort crashes
  · have hupgrade := upgrade_eq rows crashes
    rw [if_pos hcut] at hupgrade
    rw [or_iff_right (not_not_intro hcut)]
    refine forall_congr' fun b => imp_congr_right fun hb => imp_congr_right fun _ => ?_
    rw [leavesOut_iff hupgrade hb]
    simp
  · have hupgrade := upgrade_eq rows crashes
    rw [if_neg hcut] at hupgrade
    refine iff_of_true (fun b hb hdigested => ?_) (Or.inl hcut)
    have hget : rows.get b.id = some b := Table.get_eq_some_iff.mpr ⟨hb, rfl⟩
    rw [leavesOut_iff hupgrade hb, digested, hget]
    exact fun h => Option.isSome_iff_ne_none.mp hdigested h.2

/-- A bundle digested before the upgrade, with a graph, open. -/
def digestedBundle : LegacyBundle :=
  { id := "bun_1", digestedAt := some 1, graphCode := some "…" }

/-- One crash right after the column is there, and the digested bundle runs again. -/
theorem digested_bundle_reruns : ¬ NeverReruns ⟨[digestedBundle], List.nodup_singleton _⟩ [3] := by
  have hupgrade := upgrade_eq ⟨[digestedBundle], List.nodup_singleton _⟩ [3]
  rw [if_pos (by decide)] at hupgrade
  have hmem : digestedBundle ∈ [digestedBundle] := List.mem_singleton_self _
  intro h
  exact (leavesOut_iff hupgrade hmem).mp (h digestedBundle hmem rfl) ⟨⟨rfl, rfl, rfl⟩, rfl⟩

end Krewhub
