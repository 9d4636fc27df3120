import Krewhub.Server

/-!
# Versions

`resource_version` is raised by `TaskRepo.update` and by some of the statements beside it; the others write
the row and leave the version. A client that holds a row takes one with the same version for the same row,
so two rows with one version must not differ. Beside the run stands every row there has been.
-/

namespace Krewhub

/-- The statement raises `resource_version`. -/
def TaskUpdate.bumps : TaskUpdate → Bool
  | .patch .. | .reopenForRerun _ | .followupReopen | .orch _ | .injectBrief .. | .injectDescription .. =>
    true
  | .stampSessionToken _ | .completion .. | .brief _ | .createdByTask _ | .assignment .. | .progress _ =>
    false

theorem TaskUpdate.apply_resourceVersion (u : TaskUpdate) (t : Task) :
    (u.apply t).resourceVersion = if u.bumps then t.resourceVersion + 1 else t.resourceVersion := by
  cases u <;> rfl

/-- A run of the server, and every row of a task there has been. -/
structure History where
  run : RunState
  snapshots : List Task

namespace History

def exec (op : RunOp) (h : History) : History where
  run := op.exec h.run
  snapshots := h.snapshots ++ (op.exec h.run).db.tasks.rows

/-- The history that begins with a state. -/
def of (s : RunState) : History := ⟨s, s.db.tasks.rows⟩

/-- Rows of one task with one version are one row. -/
def Identified (h : History) : Prop :=
  ∀ t ∈ h.snapshots, ∀ t' ∈ h.snapshots, t.id = t'.id → t.resourceVersion = t'.resourceVersion → t = t'

instance Identified.decidable : DecidablePred Identified := fun h =>
  inferInstanceAs (Decidable (∀ t ∈ h.snapshots, ∀ t' ∈ h.snapshots, _ → _ → t = t'))

/-- The rows there are have the highest versions so far, and every version belongs to one row. -/
structure Versioned (h : History) : Prop where
  current : ∀ r ∈ h.run.db.tasks, r ∈ h.snapshots
  below : ∀ t ∈ h.snapshots, ∀ r ∈ h.run.db.tasks, t.id = r.id →
    t = r ∨ t.resourceVersion < r.resourceVersion
  identified : h.Identified

theorem versioned_of (s : RunState) : (of s).Versioned where
  current _ hr := hr
  below _ ht _ hr hid := .inl (Table.eq_of_key_eq ht hr hid)
  identified _ ht _ ht' hid _ := Table.eq_of_key_eq ht ht' hid

/-- A step whose rows are what they were or have a version of their own. -/
theorem Versioned.step {h : History} (hversioned : h.Versioned) {op : RunOp}
    (hrows : ∀ t ∈ h.snapshots, ∀ r ∈ (op.exec h.run).db.tasks, t.id = r.id →
      t = r ∨ t.resourceVersion < r.resourceVersion) : (exec op h).Versioned := by
  have hbelow : ∀ t ∈ (exec op h).snapshots, ∀ r ∈ (op.exec h.run).db.tasks, t.id = r.id →
      t = r ∨ t.resourceVersion < r.resourceVersion := by
    intro t ht r hr hid
    rcases List.mem_append.mp ht with ht | ht
    · exact hrows t ht r hr hid
    · exact .inl (Table.eq_of_key_eq ht hr hid)
  refine ⟨fun r hr => List.mem_append_right _ hr, hbelow, fun t ht t' ht' hid hversion => ?_⟩
  rcases List.mem_append.mp ht' with hold' | hnew'
  · rcases List.mem_append.mp ht with hold | hnew
    · exact hversioned.identified t hold t' hold' hid hversion
    · rcases hbelow t' ht' t hnew hid.symm with heq | hlt
      · exact heq.symm
      · omega
  · rcases hbelow t ht t' hnew' hid with heq | hlt
    · exact heq
    · omega

end History

/-! ### What the statements are asked for -/

/-- The id of a new row has not been a task's before. -/
def FreshIds (h : History) (_ : Nat) : RunOp → Prop
  | .sql (.insertTask t) => h.run.db.acceptsTask t = true → ∀ t' ∈ h.snapshots, t'.id ≠ t.id
  | _ => True

/-- A statement that leaves the version leaves the row. -/
def BumpsChanges (h : History) (_ : Nat) : RunOp → Prop
  | .sql (.updateTask id u _ _) => u.bumps = false → ∀ t ∈ h.run.db.tasks.get id, u.apply t = t
  | _ => True

instance FreshIds.decidable (h : History) (i : Nat) : DecidablePred (FreshIds h i) := by
  rintro ((_ | _) | _) <;> unfold FreshIds <;> dsimp only <;> infer_instance

instance BumpsChanges.decidable (h : History) (i : Nat) : DecidablePred (BumpsChanges h i) := by
  rintro ((_ | _) | _) <;> unfold BumpsChanges <;> dsimp only <;> infer_instance

namespace History

variable {h : History} {i : Nat}

theorem Versioned.update {id : String} {u : TaskUpdate} {seen : Option Task} (hversioned : h.Versioned)
    (hbumps : BumpsChanges h i (.sql (.updateTask id u none seen))) :
    (exec (.sql (.updateTask id u none seen)) h).Versioned := by
  refine hversioned.step fun t ht r hr hid => ?_
  obtain ⟨r', hr', rfl⟩ := (@Op.mem_exec_updateTask h.run.db id u seen r).mp hr
  by_cases hrow : r'.id = id
  · rw [if_pos hrow] at hid ⊢
    rw [TaskUpdate.apply_id] at hid
    have hbelow := hversioned.below t ht r' hr' hid
    cases hbump : u.bumps with
    | true =>
      rw [TaskUpdate.apply_resourceVersion, hbump, if_pos rfl]
      refine .inr ?_
      rcases hbelow with rfl | hlt <;> omega
    | false =>
      rw [hbumps hbump r' (Table.get_eq_some_iff.mpr ⟨hr', hrow⟩)]
      exact hbelow
  · rw [if_neg hrow] at hid ⊢
    exact hversioned.below t ht r' hr' hid

theorem Versioned.insert {t : Task} (hversioned : h.Versioned)
    (hfresh : FreshIds h i (.sql (.insertTask t))) : (exec (.sql (.insertTask t)) h).Versioned := by
  refine hversioned.step fun t' ht' r hr hid => ?_
  have hmem : r ∈ ((Op.insertTask t).exec h.run.db).tasks := hr
  rw [Op.exec] at hmem
  split at hmem
  · rename_i haccepts
    have hfree := haccepts
    rw [Db.acceptsTask, Bool.and_eq_true, Option.isNone_iff_eq_none] at hfree
    rcases (Table.mem_insert hfree.1).mp hmem with hmem | rfl
    · exact hversioned.below t' ht' r hmem hid
    · exact absurd hid (hfresh haccepts t' ht')
  · exact hversioned.below t' ht' r hmem hid

theorem Versioned.of_op {op : RunOp} (hversioned : h.Versioned) (hop : ServerRunOp op)
    (hfresh : FreshIds h i op) (hbumps : BumpsChanges h i op) : (exec op h).Versioned := by
  have hsame : (op.exec h.run).db.tasks = h.run.db.tasks → (exec op h).Versioned := by
    intro htasks
    refine hversioned.step fun t ht r hr hid => ?_
    rw [htasks] at hr
    exact hversioned.below t ht r hr hid
  cases op with
  | poll | post | note => exact hsame rfl
  | sql op =>
    cases hop
    case update => exact hversioned.update hbumps
    case insert => exact hversioned.insert hfresh
    case delete id =>
      exact hversioned.step fun t ht r hr hid =>
        hversioned.below t ht r (Table.mem_erase.mp hr).1 hid
    case free hfree => exact hsame (hfree.exec h.run.db).1

/-- A statement that changes a row and leaves its version makes two rows of one version. -/
theorem bumpsChanges_of_identified {op : RunOp} (hversioned : h.Versioned) (hop : ServerRunOp op)
    (hidentified : (exec op h).Identified) : BumpsChanges h i op := by
  cases op with
  | poll | post | note => trivial
  | sql op =>
    cases hop
    case update id u seen hupdate =>
      intro hbump t ht
      obtain ⟨hmem, hid⟩ := Table.get_eq_some_iff.mp ht
      have hafter : u.apply t ∈ (Op.exec (.updateTask id u none seen) h.run.db).tasks :=
        (@Op.mem_exec_updateTask h.run.db id u seen (u.apply t)).mpr ⟨t, hmem, (if_pos hid).symm⟩
      refine hidentified _ (List.mem_append_right _ hafter) _
        (List.mem_append_left _ (hversioned.current t hmem)) (TaskUpdate.apply_id u t) ?_
      rw [TaskUpdate.apply_resourceVersion, hbump]
      rfl
    case insert => trivial
    case delete => trivial
    case free hfree =>
      cases op
      case updateTask => cases hfree
      all_goals trivial

end History

/-! ### Every schedule -/

/-- Coroutines of the server side by side, with the rows there have been; none has begun. -/
def historyPool (calls : Nat → ServerCall) (s : RunState) : Pool Nat History RunOp Exn Unit :=
  .init (fun n => ((calls n).program n).on History.run) (.of s)

/-- What a schedule makes of the rows. -/
def historyAfter (calls : Nat → ServerCall) (s : RunState) (schedule : List Nat) : History :=
  ((historyPool calls s).run History.exec id (schedule.map .run)).state

theorem snapshots_subset (calls : Nat → ServerCall) (s : RunState) (schedule : List Nat) (k : Nat) :
    (historyAfter calls s (schedule.take k)).snapshots ⊆ (historyAfter calls s schedule).snapshots := by
  have hsplit : historyAfter calls s schedule =
      (((historyPool calls s).run History.exec id ((schedule.take k).map .run)).run History.exec id
        ((schedule.drop k).map .run)).state := by
    rw [historyAfter, Pool.run, Pool.run, Pool.run, ← List.foldl_append, ← List.map_append,
      List.take_append_drop]
  rw [hsplit]
  exact Pool.rel_run (P := fun _ _ => True) (R := fun (h h' : History) => h.snapshots ⊆ h'.snapshots)
    (fun _ => List.Subset.refl _) (fun _ _ _ hab hbc => List.Subset.trans hab hbc)
    (fun _ _ _ _ _ => List.subset_append_left _ _) (fun _ => List.Subset.refl _)
    (fun _ c _ => Coro.every_true c) (Pool.along_true _)

/-- Whatever the coroutines of the server and the order of their steps: as long as the ids of new tasks are
new, rows of one task with one version are one row exactly when every statement that leaves the version
meets a row that already is what it writes. -/
theorem identified_iff (calls : Nat → ServerCall) (s : RunState) (schedule : List Nat)
    (hfresh : Pool.Along History.exec id FreshIds (historyPool calls s) (schedule.map .run)) :
    (historyAfter calls s schedule).Identified ↔
      Pool.Along History.exec id BumpsChanges (historyPool calls s) (schedule.map .run) := by
  have heach : Pool.Each (fun _ => ServerRunOp) (historyPool calls s) :=
    Pool.each_init (fun n => ((calls n).every_program n).on History.run) _
  have hkeep : ∀ h i op, ServerRunOp op → FreshIds h i op → h.Versioned → BumpsChanges h i op →
      (History.exec op h).Versioned := fun _ _ _ hop hfresh h hbumps => h.of_op hop hfresh hbumps
  have hstep : ∀ h i op, ServerRunOp op → FreshIds h i op → h.Versioned →
      (BumpsChanges h i op ↔ (History.exec op h).Identified) := fun h i op hop hfresh hversioned =>
    ⟨fun hbumps => (hkeep h i op hop hfresh hversioned hbumps).identified,
      fun hidentified => History.bumpsChanges_of_identified hversioned hop hidentified⟩
  have hstart := History.versioned_of s
  rw [Pool.along_iff_forall hkeep hstep heach hstart hstart.identified hfresh]
  refine ⟨fun hidentified k t ht t' ht' => ?_, fun hall => ?_⟩
  · exact hidentified t (snapshots_subset calls s schedule k ht) t'
      (snapshots_subset calls s schedule k ht')
  · have hlast := hall schedule.length
    rwa [List.take_length] at hlast

/-! ### A completion -/

/-- A task at work. -/
def atWorkDb : Db where
  bundles := (∅ : Table Bundle).insert { id := "bun_1", cookbookId := some "cb_1" }
  tasks := (∅ : Table Task).insert
    { id := "task_1", bundleId := "bun_1", status := .working, claimedByAgentId := some "agent_1" }

/-- It is done, or its result is posted, or its progress. -/
def reportCalls (n : Nat) : ServerCall :=
  let operator : CallerContext := { accountId := legacyAccountId }
  match n with
  | 0 => .request 0 (.status "task_1" "done" none) operator (pathDraws 'a')
  | 1 => .request 0 (.completion "task_1" { report := some { status := some "ok" } }) operator
      (pathDraws 'b')
  | _ => .progress "task_1" "half" operator

def atWork : RunState := ⟨atWorkDb, { bundleId := "bun_1" }⟩

theorem identified_of_done :
    (historyAfter reportCalls atWork (List.replicate 7 0)).Identified ∧
      (historyAfter reportCalls atWork (List.replicate 7 0)).run.db.statusOf "task_1" = some .done :=
  ⟨(identified_iff reportCalls atWork (List.replicate 7 0) (by decide +kernel)).mpr
    (by decide +kernel), by decide +kernel⟩

/-- The result and the progress are written under the version the row had. -/
theorem report_keeps_version :
    ¬ (historyAfter reportCalls atWork (List.replicate 5 1)).Identified ∧
    ¬ (historyAfter reportCalls atWork (List.replicate 5 2)).Identified ∧
    ((historyAfter reportCalls atWork (List.replicate 5 1)).run.db.tasks.get "task_1").map
      (fun t => (t.resourceVersion, t.report.isSome)) = some (1, true) := by
  decide +kernel

end Krewhub
