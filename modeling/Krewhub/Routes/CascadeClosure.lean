import Krewhub.Routes.LinkAcyclicity

/-!
# What a cancellation reaches

The cascade of a cancelled task goes down the `drives` links and passes over tasks that are done or
cancelled, while `cancel_task` accepts a task only when it is open, claimed or working. A driven task
that is blocked or waits for its review therefore outlives its driver, its link is revoked all the
same, and nothing below it is reached.

`drivenCancelled_iff` says that nothing else goes wrong: the cascade cancels all that a task drives
exactly when `cancel_task` accepts all of it.
-/

namespace Krewhub

open Relation

/-! ### The statuses a cascade changes -/

/-- `cancel_task` accepts the task. -/
def Cancellable (db : Db) (taskId : String) : Prop :=
  ∃ status ∈ db.statusOf taskId, status ∈ [TaskStatus.open_, .claimed, .working]

/-- Tasks have been cancelled, each of them one that `cancel_task` accepts; no other status has
changed. -/
def Cancels (db db' : Db) : Prop :=
  ∀ taskId, db'.statusOf taskId = db.statusOf taskId ∨
    Cancellable db taskId ∧ db'.statusOf taskId = some .cancelled

theorem cancellable_congr {db db' : Db} {taskId : String}
    (h : db'.statusOf taskId = db.statusOf taskId) :
    Cancellable db' taskId ↔ Cancellable db taskId := by
  rw [Cancellable, h, Cancellable]

theorem not_cancellable_of_statusOf {db : Db} {taskId : String} {status : TaskStatus}
    (h : db.statusOf taskId = some status) (hstatus : status ∉ [TaskStatus.open_, .claimed, .working]) :
    ¬ Cancellable db taskId := by
  rintro ⟨status', hmem, hcancellable⟩
  rw [h, Option.mem_some_iff] at hmem
  exact hstatus (hmem ▸ hcancellable)

instance : IsPreorder Db Cancels where
  refl _ _ := .inl rfl
  trans _ _ _ hab hbc taskId := by
    rcases hab taskId with hab | ⟨hcancellable, hab⟩
    · rcases hbc taskId with hbc | ⟨hcancellable, hbc⟩
      · exact .inl (hbc.trans hab)
      · exact .inr ⟨(cancellable_congr hab).mp hcancellable, hbc⟩
    · rcases hbc taskId with hbc | ⟨_, hbc⟩
      · exact .inr ⟨hcancellable, hbc.trans hab⟩
      · exact .inr ⟨hcancellable, hbc⟩

theorem Cancels.not_cancellable {db db' : Db} (h : Cancels db db') {taskId : String}
    (hnot : ¬ Cancellable db taskId) : ¬ Cancellable db' taskId := by
  rcases h taskId with hsame | ⟨hcancellable, _⟩
  · rwa [cancellable_congr hsame]
  · exact absurd hcancellable hnot

theorem cancels_of_statusFree {op : Op} (h : op.IsStatusFree) (db : Db) : Cancels db (op.exec db) :=
  fun taskId => .inl (h.statusOf db taskId)

/-- `cancel_task` refuses a task and leaves everything as it is, or cancels it and nothing else. -/
theorem run_cancelTask (taskId : String) (d : Draws) (db : Db) :
    (¬ Cancellable db taskId ∧ (TaskService.cancelTask taskId d).run Op.exec db = (.ok none, db)) ∨
      ∃ updated db', (TaskService.cancelTask taskId d).run Op.exec db = (.ok (some updated), db') ∧
        Cancellable db taskId ∧ db'.statusOf taskId = some .cancelled ∧
        (∀ id, id ≠ taskId → db'.statusOf id = db.statusOf id) ∧ db'.links = db.links := by
  cases htask : db.tasks.get taskId with
  | none =>
    refine .inl ⟨?_, by rw [TaskService.cancelTask, TaskRepo.run_get_bind, htask]; rfl⟩
    rintro ⟨status, hmem, _⟩
    rw [Db.statusOf, htask] at hmem
    cases hmem
  | some task =>
    have hstatus : db.statusOf taskId = some task.status := by rw [Db.statusOf, htask]; rfl
    by_cases haccepted : task.status ∈ [TaskStatus.open_, .claimed, .working]
    · have hrun := TaskService.run_cancelTask_of_get htask haccepted d
      rw [TaskService.cancelOp, Op.get_exec_updateTask, if_pos rfl, htask] at hrun
      exact .inr ⟨_, _, hrun, ⟨_, hstatus, haccepted⟩, Op.statusOf_updateTask_self htask,
        fun id hid => Op.statusOf_updateTask_of_ne hid, rfl⟩
    · refine .inl ⟨not_cancellable_of_statusOf hstatus haccepted, ?_⟩
      rw [TaskService.cancelTask, TaskRepo.run_get_bind, htask]
      dsimp only
      rw [if_pos haccepted]
      rfl

theorem cancels_cancelTask (taskId : String) (d : Draws) (db : Db) :
    Sql.Keeps Cancels (TaskService.cancelTask taskId d) db := by
  rw [Sql.Keeps, Coro.Keeps]
  rcases run_cancelTask taskId d db with ⟨_, hrun⟩ | ⟨_, db', hrun, hcancellable, hself, hother, _⟩
  · rw [hrun]
    exact refl_of Cancels db
  · rw [hrun]
    intro id
    by_cases hid : id = taskId
    · rw [hid]
      exact .inr ⟨hcancellable, hself⟩
    · exact .inl (hother id hid)

theorem cascadeKeeps_cancels : CascadeKeeps Cancels where
  revoke id now db :=
    cancels_of_statusFree (show Op.IsStatusFree (.revokeLink id now) from trivial) db
  cancel := cancels_cancelTask
  unblock _ _ _ db _ := by
    apply cancels_of_statusFree
    rfl

theorem cancels_of_cascade {depth : Nat} {taskId : String} {seen : List String} {d : Draws}
    {r : Except Exn (CascadeSummary × List String)} {db db' : Db}
    (h : (cascadeOnTaskTermination depth taskId seen d).run Op.exec db = (r, db')) :
    Cancels db db' := by
  have hkeeps := keeps_cascade cascadeKeeps_cancels depth taskId seen d db
  rwa [Sql.Keeps, Coro.Keeps, h] at hkeeps

/-! ### The invariant of the cascade -/

/-- Since the cascade began in `db₀`, only links that touch a task in `seen` have been revoked; the
tasks of `ended` can no longer be cancelled, and no other status has changed. -/
structure CascadeInv (db₀ db : Db) (seen ended : List String) : Prop where
  keeps : KeepsLinks db₀ db
  active : ∀ l ∈ db₀.links, l.revokedAt = none →
    l ∈ db.links ∨ l.fromTaskId ∈ seen ∨ l.toTaskId ∈ seen
  settled : ∀ taskId ∈ ended, ¬ Cancellable db taskId
  changed : ∀ taskId, db.statusOf taskId ≠ db₀.statusOf taskId → taskId ∈ ended

/-- What a part of the cascade has reached when `seen` has grown to `seen'`: all that the new tasks
drove can no longer be cancelled. -/
structure CascadeReached (db₀ db' : Db) (seen seen' : List String) : Prop where
  inv : CascadeInv db₀ db' seen' seen'
  grows : ∀ taskId ∈ seen, taskId ∈ seen'
  closed : ∀ l ∈ db₀.links, l.revokedAt = none → l.kind = "drives" → l.fromTaskId ∈ seen' →
    l.fromTaskId ∉ seen → ¬ Cancellable db' l.toTaskId

variable {db₀ db db' : Db} {seen seen' ended : List String}

theorem CascadeInv.reached (h : CascadeInv db₀ db seen seen) : CascadeReached db₀ db seen seen :=
  ⟨h, fun _ hmem => hmem, fun _ _ _ _ hmem hnot => absurd hmem hnot⟩

theorem CascadeReached.trans {db'' : Db} {seen'' : List String}
    (h : CascadeReached db₀ db' seen seen') (h' : CascadeReached db₀ db'' seen' seen'')
    (hcancels : Cancels db' db'') : CascadeReached db₀ db'' seen seen'' where
  inv := h'.inv
  grows taskId hmem := h'.grows taskId (h.grows taskId hmem)
  closed l hl hactive hkind hmem hnot := by
    by_cases hfirst : l.fromTaskId ∈ seen'
    · exact hcancels.not_cancellable (h.closed l hl hactive hkind hfirst hnot)
    · exact h'.closed l hl hactive hkind hmem hfirst

theorem CascadeInv.mono {seen' : List String} (h : CascadeInv db₀ db seen ended)
    (hseen : ∀ taskId ∈ seen, taskId ∈ seen') : CascadeInv db₀ db seen' ended :=
  { h with
    active := fun l hl hactive =>
      (h.active l hl hactive).imp_right (Or.imp (hseen _) (hseen _)) }

/-- A link that touches a task in `seen` may be revoked. -/
theorem CascadeInv.revoke (h : CascadeInv db₀ db seen ended) {link : Link} (hlink : link ∈ db₀.links)
    (htouches : link.fromTaskId ∈ seen ∨ link.toTaskId ∈ seen) (now : Nat) :
    CascadeInv db₀ (Op.exec (.revokeLink link.id now) db) seen ended where
  keeps := trans_of KeepsLinks h.keeps (LinkSafe.revoke db)
  active l hl hactive := by
    rcases h.active l hl hactive with hmem | htouches
    · by_cases hid : l.id = link.id
      · rw [Table.eq_of_key_eq hl hlink hid]
        exact .inr htouches
      · exact .inl (Op.mem_exec_revokeLink.mpr ⟨l, hmem, by rw [if_neg hid]⟩)
    · exact .inr htouches
  settled := h.settled
  changed := h.changed

/-- So may a dependency be dropped. -/
theorem CascadeInv.update (h : CascadeInv db₀ db seen ended) {taskId : String} {u : TaskUpdate}
    (hu : u.status? = none) :
    CascadeInv db₀ (Op.exec (.updateTask taskId u none none) db) seen ended := by
  have hstatus : ∀ id, (Op.exec (.updateTask taskId u none none) db).statusOf id = db.statusOf id :=
    (show Op.IsStatusFree (.updateTask taskId u none none) from hu).statusOf db
  refine ⟨trans_of KeepsLinks h.keeps (LinkSafe.update db), h.active, ?_, ?_⟩
  · intro id hid
    rw [cancellable_congr (hstatus id)]
    exact h.settled id hid
  · intro id hid
    rw [hstatus id] at hid
    exact h.changed id hid

/-- A cascade that ends leaves the invariant with its task in `seen`. -/
def CascadeSpec (db₀ : Db) (recurse : Cascade) : Prop :=
  ∀ taskId seen d db out db', CascadeInv db₀ db seen (taskId :: seen) →
    (recurse taskId seen d).run Op.exec db = (.ok out, db') →
      CascadeReached db₀ db' seen out.2 ∧ taskId ∈ out.2

variable {recurse : Cascade} {out : CascadeSummary × List String} {taskId : String} {link : Link}
  {d : Draws}

theorem reached_cascadeChild (hspec : CascadeSpec db₀ recurse) (hinv : CascadeInv db₀ db seen seen)
    {child : Task} (hchild : db.tasks.get child.id = some child)
    (h : (cascadeChild recurse taskId link child seen d).run Op.exec db = (.ok out, db')) :
    CascadeReached db₀ db' seen out.2 ∧
      (drivesChild taskId link = true → ¬ Cancellable db' child.id) := by
  rw [cascadeChild] at h
  cases hdrives : drivesChild taskId link with
  | false =>
    rw [hdrives, if_neg Bool.false_ne_true] at h
    split at h
    · rw [Coro.run_bind] at h
      split at h
      · rename_i updated db₁ hupdate
        have hinv₁ : CascadeInv db₀ db₁ seen seen := by
          rw [TaskRepo.run_update rfl] at hupdate
          cases hupdate
          exact hinv.update rfl
        cases updated <;> cases h <;> exact ⟨hinv₁.reached, fun hfalse => by cases hfalse⟩
      · cases h
    · cases h
      exact ⟨hinv.reached, fun hfalse => by cases hfalse⟩
  | true =>
    rw [hdrives, if_pos rfl] at h
    have hstatus : db.statusOf child.id = some child.status := by
      rw [Db.statusOf, hchild]
      rfl
    split at h
    · rename_i hfinished
      cases h
      refine ⟨hinv.reached, fun _ => not_cancellable_of_statusOf hstatus ?_⟩
      rcases hfinished with heq | heq <;> rw [heq] <;> decide
    · rcases run_cancelTask child.id (d.sub 0) db with
        ⟨hnot, hrun⟩ | ⟨updated, db₁, hrun, _, hcancelled, hother, hlinks⟩
      · rw [Coro.run_bind_ok Op.exec hrun] at h
        cases h
        exact ⟨hinv.reached, fun _ => hnot⟩
      · rw [Coro.run_bind_ok Op.exec hrun] at h
        dsimp only at h
        have hinv₁ : CascadeInv db₀ db₁ seen (child.id :: seen) := by
          refine ⟨trans_of KeepsLinks hinv.keeps ?_, ?_, ?_, ?_⟩
          · exact keepsLinks_of_run (TaskService.every_cancelTask
              requestOps_linkSafe.toPlainOps (fun _ _ _ => .update) _) hrun
          · rw [hlinks]
            exact hinv.active
          · intro id hid
            by_cases hself : id = child.id
            · rw [hself]
              exact not_cancellable_of_statusOf hcancelled (by decide)
            · rw [cancellable_congr (hother id hself)]
              exact hinv.settled id (List.mem_of_ne_of_mem hself hid)
          · intro id hid
            by_cases hself : id = child.id
            · rw [hself]
              exact List.mem_cons_self
            · rw [hother id hself] at hid
              exact List.mem_cons_of_mem _ (hinv.changed id hid)
        rw [Coro.run_bind] at h
        split at h
        · rename_i sub db₂ hsub
          cases h
          obtain ⟨hreached, hmem⟩ := hspec _ _ _ _ _ _ hinv₁ hsub
          exact ⟨hreached, fun _ => hreached.inv.settled _ hmem⟩
        · cases h

theorem reached_cascadeLink (hspec : CascadeSpec db₀ recurse) (hinv : CascadeInv db₀ db seen seen)
    (hlink : link ∈ db₀.links) (htouches : link.fromTaskId ∈ seen ∨ link.toTaskId ∈ seen)
    {now : Nat} (h : (cascadeLink recurse taskId now link seen d).run Op.exec db = (.ok out, db')) :
    CascadeReached db₀ db' seen out.2 ∧
      (link.fromTaskId = taskId → drivesChild taskId link = true →
        ¬ Cancellable db' link.toTaskId) := by
  have hinv₁ := hinv.revoke hlink htouches now
  rw [cascadeLink, Coro.perform, Coro.await_bind, Coro.run_await, Coro.done_bind] at h
  by_cases hfrom : link.fromTaskId = taskId
  · rw [if_neg (not_not_intro hfrom), TaskRepo.run_get_bind] at h
    cases hchild : (Op.exec (.revokeLink link.id now) db).tasks.get link.toTaskId with
    | none =>
      rw [hchild] at h
      cases h
      refine ⟨hinv₁.reached, fun _ _ => ?_⟩
      rintro ⟨status, hmem, _⟩
      rw [Db.statusOf, hchild] at hmem
      cases hmem
    | some child =>
      rw [hchild] at h
      dsimp only at h
      have hid : child.id = link.toTaskId := Table.key_eq_of_get hchild
      rw [Coro.run_bind] at h
      split at h
      · rename_i head db₂ hhead
        cases h
        rw [← hid] at hchild ⊢
        obtain ⟨hreached, hnot⟩ := reached_cascadeChild hspec hinv₁ hchild hhead
        exact ⟨hreached, fun _ => hnot⟩
      · cases h
  · rw [if_pos hfrom] at h
    cases h
    exact ⟨hinv₁.reached, fun heq => absurd heq hfrom⟩

theorem reached_cascadeLinks (hspec : CascadeSpec db₀ recurse)
    (hcancels : ∀ t seen d db, Sql.Keeps Cancels (recurse t seen d) db)
    (hinv : CascadeInv db₀ db seen seen) (hseen : taskId ∈ seen) {links : List Link}
    (hlinks : ∀ l ∈ links, l ∈ db₀.links ∧ (l.fromTaskId = taskId ∨ l.toTaskId = taskId))
    {now : Nat} (h : (cascadeLinks recurse taskId now d links seen).run Op.exec db = (.ok out, db')) :
    CascadeReached db₀ db' seen out.2 ∧
      ∀ l ∈ links, l.fromTaskId = taskId → drivesChild taskId l = true →
        ¬ Cancellable db' l.toTaskId := by
  induction links generalizing seen db out with
  | nil =>
    cases h
    exact ⟨hinv.reached, fun l hl => by cases hl⟩
  | cons link links ih =>
    rw [cascadeLinks, Coro.run_bind] at h
    split at h
    · rename_i head db₁ hhead
      obtain ⟨hlink, htouches⟩ := hlinks link List.mem_cons_self
      have htouchesSeen : link.fromTaskId ∈ seen ∨ link.toTaskId ∈ seen := by
        rcases htouches with rfl | rfl
        · exact .inl hseen
        · exact .inr hseen
      obtain ⟨hreached, hnot⟩ := reached_cascadeLink hspec hinv hlink htouchesSeen hhead
      rw [Coro.run_bind] at h
      split at h
      · rename_i rest db₂ hrest
        have hcancelled : Cancels db₁ db₂ := by
          have hkeeps := keeps_cascadeLinks cascadeKeeps_cancels hcancels taskId now d links head.2 db₁
          rwa [Sql.Keeps, Coro.Keeps, hrest] at hkeeps
        cases h
        obtain ⟨hreachedRest, hnotRest⟩ := ih hreached.inv (hreached.grows _ hseen)
          (fun l hl => hlinks l (List.mem_cons_of_mem _ hl)) hrest
        refine ⟨hreached.trans hreachedRest hcancelled, fun l hl hfrom hdrives => ?_⟩
        rcases List.mem_cons.mp hl with rfl | hl
        · exact hcancelled.not_cancellable (hnot hfrom hdrives)
        · exact hnotRest l hl hfrom hdrives
      · cases h
    · cases h

/-- By induction on the depth: the links a task had when the cascade came to it are all gone over. -/
theorem cascadeSpec_cascade (db₀ : Db) (depth : Nat) :
    CascadeSpec db₀ (cascadeOnTaskTermination depth) := by
  induction depth with
  | zero =>
    intro taskId seen d db out db' _ h
    cases h
  | succ depth ih =>
    intro taskId seen d db out db' hinv h
    have hcancels := cancels_of_cascade h
    rw [cascadeOnTaskTermination] at h
    dsimp only at h
    by_cases hmem : taskId ∈ seen
    · rw [if_pos hmem] at h
      cases h
      refine ⟨CascadeInv.reached ⟨hinv.keeps, hinv.active, ?_, ?_⟩, hmem⟩
      · exact fun id hid => hinv.settled id (List.mem_cons_of_mem _ hid)
      · intro id hid
        rcases List.mem_cons.mp (hinv.changed id hid) with rfl | hid
        · exact hmem
        · exact hid
    · rw [if_neg hmem, Coro.run_bind_ok Op.exec (Sql.run_select _ db), Coro.run_bind] at h
      split at h
      · rename_i out' db₁ hloop
        cases h
        have hlinks : ∀ l ∈ activeLinksOf db taskId,
            l ∈ db₀.links ∧ (l.fromTaskId = taskId ∨ l.toTaskId = taskId) := by
          intro l hl
          simp only [activeLinksOf, List.mem_filter, Bool.and_eq_true, Bool.or_eq_true, beq_iff_eq,
            Option.isNone_iff_eq_none] at hl
          exact ⟨hinv.keeps.links l hl.1 hl.2.2, hl.2.1⟩
        have hinv₁ := hinv.mono fun id hid => List.mem_cons_of_mem taskId hid
        obtain ⟨hreached, hnot⟩ := reached_cascadeLinks ih (keeps_cascade cascadeKeeps_cancels depth)
          hinv₁ List.mem_cons_self hlinks hloop
        refine ⟨⟨hreached.inv, fun id hid => hreached.grows id (List.mem_cons_of_mem _ hid), ?_⟩,
          hreached.grows _ List.mem_cons_self⟩
        intro l hl hactive hkind hfrom hnew
        by_cases hself : l.fromTaskId = taskId
        · rcases hinv.active l hl hactive with hthere | hseen | hseen
          · refine hnot l ?_ hself (by simp [drivesChild, hkind])
            rw [activeLinksOf, List.mem_filter]
            simp [hself, hactive, show l ∈ db.links.rows from hthere]
          · exact absurd hseen hnew
          · exact hcancels.not_cancellable
              (hinv.settled _ (List.mem_cons_of_mem _ hseen))
        · exact hreached.closed l hl hactive hkind hfrom (List.not_mem_cons_of_ne_of_not_mem hself hnew)
      · cases h

/-! ### The cancellation of a task -/

/-- An active `drives` link of the bundle from `x` to the task `y`, which is neither done nor
cancelled. -/
def DrivesAlive (db : Db) (bundleId x y : String) : Prop :=
  (∃ l ∈ db.links, l.bundleId = bundleId ∧ l.revokedAt = none ∧ l.kind = "drives" ∧
    l.fromTaskId = x ∧ l.toTaskId = y) ∧
  ∃ status ∈ db.statusOf y, status ≠ .done ∧ status ≠ .cancelled

/-- A cancellation that succeeds is a cascade from the task, once it is cancelled. -/
theorem reached_cancelTask {depth : Nat} {caller : CallerContext}
    {out : Task × CascadeSummary}
    (h : (cancelTask depth taskId caller d).run Op.exec db = (.ok out, db')) :
    Cancels db db' ∧ ∃ seen', CascadeReached db db' [] seen' ∧ taskId ∈ seen' := by
  obtain ⟨found, hfound⟩ := exists_run_of_plain (every_taskOr404 plainOps_isPlain taskId) db
  rw [cancelTask, Coro.run_bind, hfound] at h
  cases found with
  | error e => cases h
  | ok task =>
    dsimp only at h
    obtain ⟨allowed, hallowed⟩ :=
      exists_run_of_plain (every_authorizeTaskMutation plainOps_isPlain caller task) db
    rw [Coro.run_bind, hallowed] at h
    cases allowed with
    | error e => cases h
    | ok _ =>
      dsimp only at h
      rcases run_cancelTask taskId (d.sub 0) db with
        ⟨_, hrun⟩ | ⟨updated, db₁, hrun, _, hcancelled, hother, hlinks⟩
      · rw [Coro.run_bind_ok Op.exec hrun] at h
        cases h
      · rw [Coro.run_bind_ok Op.exec hrun] at h
        dsimp only at h
        rw [Coro.run_bind] at h
        split at h
        · rename_i cascade db₂ hcascade
          cases h
          have hfirst : Cancels db db₁ := by
            have hkeeps := cancels_cancelTask taskId (d.sub 0) db
            rwa [Sql.Keeps, Coro.Keeps, hrun] at hkeeps
          have hinv : CascadeInv db db₁ [] [taskId] := by
            refine ⟨keepsLinks_of_run (TaskService.every_cancelTask
              requestOps_linkSafe.toPlainOps (fun _ _ _ => .update) _) hrun, ?_, ?_, ?_⟩
            · intro l hl _
              rw [hlinks]
              exact .inl hl
            · intro id hid
              rw [List.mem_singleton.mp hid]
              exact not_cancellable_of_statusOf hcancelled (by decide)
            · intro id hid
              by_contra hne
              exact hid (hother id fun heq => hne (heq ▸ List.mem_singleton_self id))
          obtain ⟨hreached, hmem⟩ := cascadeSpec_cascade db depth _ _ _ _ _ _ hinv hcascade
          exact ⟨trans_of Cancels hfirst (cancels_of_cascade hcascade), cascade.2, hreached, hmem⟩
        · cases h

/-- After a cancellation that succeeds, all that the task drove is cancelled if and only if
`cancel_task` would have accepted all of it. -/
theorem drivenCancelled_iff {depth : Nat} {db : Db} {taskId : String} {caller : CallerContext}
    {d : Draws} (hok : ((cancelTask depth taskId caller d).run Op.exec db).1.isOk = true)
    (bundleId : String) :
    (∀ x, TransGen (DrivesAlive db bundleId) taskId x →
      ((cancelTask depth taskId caller d).run Op.exec db).2.statusOf x = some .cancelled) ↔
    ∀ x, TransGen (DrivesAlive db bundleId) taskId x → Cancellable db x := by
  rcases hrun : (cancelTask depth taskId caller d).run Op.exec db with ⟨e | out, db'⟩
  · rw [hrun] at hok
    cases hok
  · obtain ⟨hcancels, seen', hreached, hmem⟩ := reached_cancelTask hrun
    constructor
    · intro hclosed x hx
      have hcancelled : db'.statusOf x = some .cancelled := hclosed x hx
      rcases hcancels x with hsame | ⟨hcancellable, _⟩
      · obtain ⟨y, _, _, status, hstatus, _, halive⟩ := TransGen.tail'_iff.mp hx
        rw [← hsame, hcancelled, Option.mem_some_iff] at hstatus
        exact absurd hstatus.symm halive
      · exact hcancellable
    · intro hcancellable
      -- along the path, each task has been seen, so what it drives can no longer be cancelled
      have hstep : ∀ x y, x ∈ seen' → DrivesAlive db bundleId x y → Cancellable db y →
          y ∈ seen' ∧ db'.statusOf y = some .cancelled := by
        rintro x y hx ⟨⟨l, hl, _, hactive, hkind, rfl, rfl⟩, _⟩ hy
        have hnot := hreached.closed l hl hactive hkind hx List.not_mem_nil
        rcases hcancels l.toTaskId with hsame | ⟨_, hcancelled⟩
        · rw [cancellable_congr hsame] at hnot
          exact absurd hy hnot
        · refine ⟨hreached.inv.changed _ fun hsame => ?_, hcancelled⟩
          rw [cancellable_congr hsame] at hnot
          exact hnot hy
      have hall : ∀ x, TransGen (DrivesAlive db bundleId) taskId x →
          x ∈ seen' ∧ db'.statusOf x = some .cancelled := by
        intro x hx
        induction hx with
        | single hedge => exact hstep _ _ hmem hedge (hcancellable _ (.single hedge))
        | tail hpath hedge ih => exact hstep _ _ ih.1 hedge (hcancellable _ (.tail hpath hedge))
      exact fun x hx => (hall x hx).2

/-! ### A blocked task in the way -/

theorem chainIds_nodup : ["task_a", "task_b", "task_c"].Nodup := by decide

/-- A task that drives a second one in the given status, which drives a third one. -/
def driveChain (status : TaskStatus) : Db where
  bundles := ⟨[{ id := "bun_1", createdBy := "acc_1" }], List.nodup_singleton "bun_1"⟩
  tasks :=
    ⟨[{ id := "task_a", bundleId := "bun_1" }, { id := "task_b", bundleId := "bun_1", status },
      { id := "task_c", bundleId := "bun_1" }],
      chainIds_nodup⟩
  links :=
    ⟨[{ id := "lnk_1", bundleId := "bun_1", fromTaskId := "task_a", toTaskId := "task_b",
        kind := "drives" },
      { id := "lnk_2", bundleId := "bun_1", fromTaskId := "task_b", toTaskId := "task_c",
        kind := "drives" }], by decide⟩

/-- The database after the first task has been cancelled. -/
def cancelledChain (status : TaskStatus) : Except Exn (Task × CascadeSummary) × Db :=
  (cancelTask 1000 "task_a" { accountId := "acc_1" } (pathDraws 'x')).run Op.exec (driveChain status)

theorem mem_links_driveChain {status : TaskStatus} {l : Link} (h : l ∈ (driveChain status).links) :
    l.fromTaskId = "task_a" ∧ l.toTaskId = "task_b" ∨
      l.fromTaskId = "task_b" ∧ l.toTaskId = "task_c" := by
  have hmem : l ∈ (driveChain status).links.rows := h
  simp only [driveChain, List.mem_cons, List.not_mem_nil, or_false] at hmem
  rcases hmem with rfl | rfl
  · exact .inl ⟨rfl, rfl⟩
  · exact .inr ⟨rfl, rfl⟩

theorem driveChain_reaches {status : TaskStatus} (hdone : status ≠ .done)
    (hcancelled : status ≠ .cancelled) :
    TransGen (DrivesAlive (driveChain status) "bun_1") "task_a" "task_c" := by
  have hfirst : DrivesAlive (driveChain status) "bun_1" "task_a" "task_b" :=
    ⟨⟨_, List.mem_cons_self, rfl, rfl, rfl, rfl, rfl⟩, status, rfl, hdone, hcancelled⟩
  have hsecond : DrivesAlive (driveChain status) "bun_1" "task_b" "task_c" :=
    ⟨⟨_, List.mem_cons_of_mem _ List.mem_cons_self, rfl, rfl, rfl, rfl, rfl⟩, .open_, rfl,
      by decide⟩
  exact .tail (.single hfirst) hsecond

theorem drivenCancelled_iff_working :
    (cancelledChain .working).2.statusOf "task_c" = some .cancelled := by
  refine (drivenCancelled_iff (by decide +kernel) "bun_1").mpr (fun y hy => ?_) "task_c"
    (driveChain_reaches (by decide) (by decide))
  obtain ⟨z, _, ⟨l, hl, _, _, _, _, rfl⟩, _⟩ := TransGen.tail'_iff.mp hy
  rcases mem_links_driveChain hl with ⟨_, hto⟩ | ⟨_, hto⟩ <;> rw [hto]
  · exact ⟨.working, rfl, by decide⟩
  · exact ⟨.open_, rfl, by decide⟩

/-- With the second task blocked the third is never reached and stays open. -/
theorem blocked_child_orphans_subtree :
    LinksAcyclic (driveChain .blocked) ∧ (cancelledChain .blocked).1.isOk = true ∧
      TransGen (DrivesAlive (driveChain .blocked) "bun_1") "task_a" "task_c" ∧
      (cancelledChain .blocked).2.statusOf "task_c" = some .open_ := by
  refine ⟨fun bundleId => ?_, by decide +kernel, driveChain_reaches (by decide) (by decide),
    by decide +kernel⟩
  refine acyclic_of_rank (fun x => if x = "task_a" then 2 else if x = "task_b" then 1 else 0) ?_
  rintro x y ⟨l, hl, _, _, rfl, rfl⟩
  rcases mem_links_driveChain hl with ⟨hfrom, hto⟩ | ⟨hfrom, hto⟩ <;> rw [hfrom, hto] <;> decide

end Krewhub
