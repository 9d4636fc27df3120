import Krewhub.Services.TaskService

/-!
# The cascade of a task's end

`cascade_on_task_termination` of `links.py`: every link of a removed or cancelled task is revoked, the
tasks it drove are cancelled and cascade themselves. The recursion is the interpreter's, so it ends
with `RecursionError` when it goes deeper than the interpreter allows; how deep that is, is a
parameter.
-/

namespace Krewhub

/-- What `cascade_on_task_termination` returns. -/
structure CascadeSummary where
  linksRevoked : Nat := 0
  childrenCancelled : List String := []
  depsUnblocked : List String := []
  deriving DecidableEq, Repr

namespace CascadeSummary

def add (s t : CascadeSummary) : CascadeSummary :=
  ⟨s.linksRevoked + t.linksRevoked, s.childrenCancelled ++ t.childrenCancelled,
    s.depsUnblocked ++ t.depsUnblocked⟩

end CascadeSummary

/-- The cascade returns its summary and what it has added to `_seen`. -/
abbrev Cascade := String → List String → Draws → Sql (CascadeSummary × List String)

/-- Whether the end of the upstream of a link ends its downstream. -/
def drivesChild (taskId : String) (link : Link) : Bool :=
  link.kind == "drives" || (link.kind == "subagent" && link.createdByTask == some taskId)

/-- The downstream of a revoked link: cancelled with its own cascade when the link drives it, freed
from the dependency when the link is a pipe. -/
def cascadeChild (recurse : Cascade) (taskId : String) (link : Link) (child : Task)
    (seen : List String) (d : Draws) : Sql (CascadeSummary × List String) := do
  if drivesChild taskId link then
    if child.status = .done ∨ child.status = .cancelled then return ({}, seen)
    match ← TaskService.cancelTask child.id (d.sub 0) with
    | none => return ({}, seen)
    | some _ =>
      let (sub, seen) ← recurse child.id seen (d.sub 1)
      return (CascadeSummary.add { childrenCancelled := [child.id] } sub, seen)
  else if link.kind = "pipe" ∧ taskId ∈ child.dependsOnTaskIds then
    let updated ← TaskRepo.update child.id
      { dependsOnTaskIds := some (child.dependsOnTaskIds.filter (· ≠ taskId)) } none none (d.sub 0)
    match updated with
    | none => return ({}, seen)
    | some _ =>
      Sql.record
      return ({ depsUnblocked := [child.id] }, seen)
  else return ({}, seen)

/-- The body of the loop over the links. -/
def cascadeLink (recurse : Cascade) (taskId : String) (now : Nat) (link : Link)
    (seen : List String) (d : Draws) : Sql (CascadeSummary × List String) := do
  .perform (.revokeLink link.id now) fun _ => ()
  if link.fromTaskId ≠ taskId then return ({ linksRevoked := 1 }, seen)
  match ← TaskRepo.get link.toTaskId with
  | none => return ({ linksRevoked := 1 }, seen)
  | some child =>
    let (summary, seen) ← cascadeChild recurse taskId link child seen d
    return (CascadeSummary.add { linksRevoked := 1 } summary, seen)

def cascadeLinks (recurse : Cascade) (taskId : String) (now : Nat) (d : Draws) :
    List Link → List String → Sql (CascadeSummary × List String)
  | [], seen => return ({}, seen)
  | link :: links, seen => do
    let (head, seen) ← cascadeLink recurse taskId now link seen (d.sub links.length)
    let (rest, seen) ← cascadeLinks recurse taskId now d links seen
    return (head.add rest, seen)

/-- The unrevoked links that touch a task. -/
def activeLinksOf (db : Db) (taskId : String) : List Link :=
  db.links.rows.filter fun l =>
    (l.fromTaskId == taskId || l.toTaskId == taskId) && l.revokedAt.isNone

def cascadeOnTaskTermination (depth : Nat) : Cascade :=
  match depth with
  | 0 => fun _ _ _ => .raise .recursionError
  | depth + 1 => fun taskId seen d => do
    if taskId ∈ seen then return ({}, seen)
    let links ← Sql.select (activeLinksOf · taskId)
    let out ← cascadeLinks (cascadeOnTaskTermination depth) taskId d.clock (d.sub 0) links
      (taskId :: seen)
    Sql.commit
    return out

/-! ### What the cascade writes -/

/-- What a cascade does: revoke links, cancel tasks it has found open, claimed or working, and take a
dependency out of a task. -/
structure CascadeOps (P : Op → Prop) : Prop extends PlainOps P where
  revoke : ∀ id now, P (.revokeLink id now)
  cancel : ∀ taskId (seen : Task), seen.status ∈ [TaskStatus.open_, .claimed, .working] → ∀ now,
    P (.updateTask taskId
      (.patch { status := some .cancelled, clearBlockedReason := true } now) none (some seen))
  unblock : ∀ taskId (deps : List String) upstream now, P (.updateTask taskId
    (.patch { dependsOnTaskIds := some (deps.filter (· ≠ upstream)) } now) none none)

section Every

variable {P : Op → Prop} (hP : CascadeOps P)
include hP

theorem every_cascadeChild {recurse : Cascade} (hrecurse : ∀ t seen d, (recurse t seen d).Every P)
    (taskId : String) (link : Link) (child : Task) (seen : List String) (d : Draws) :
    (cascadeChild recurse taskId link child seen d).Every P := by
  unfold cascadeChild
  split
  · split
    · trivial
    · refine .bind (TaskService.every_cancelTask hP.toPlainOps (hP.cancel _) _) fun updated => ?_
      cases updated with
      | none => trivial
      | some _ => exact .bind (hrecurse _ _ _) fun _ => trivial
  · split
    · refine .bind (TaskRepo.every_update hP.toPlainOps (hP.unblock _ _ _ _)) fun updated => ?_
      cases updated with
      | none => trivial
      | some _ => exact .bind (Sql.every_record hP.toPlainOps) fun _ => trivial
    · trivial

theorem every_cascadeLink {recurse : Cascade} (hrecurse : ∀ t seen d, (recurse t seen d).Every P)
    (taskId : String) (now : Nat) (link : Link) (seen : List String) (d : Draws) :
    (cascadeLink recurse taskId now link seen d).Every P := by
  refine .bind ((Coro.every_perform _ _).mpr (hP.revoke _ _)) fun _ => ?_
  split
  · trivial
  · refine .bind (TaskRepo.every_get hP.toPlainOps _) fun child => ?_
    cases child with
    | none => trivial
    | some child => exact .bind (every_cascadeChild hP hrecurse _ _ _ _ _) fun _ => trivial

theorem every_cascadeLinks {recurse : Cascade} (hrecurse : ∀ t seen d, (recurse t seen d).Every P)
    (taskId : String) (now : Nat) (d : Draws) (links : List Link) (seen : List String) :
    (cascadeLinks recurse taskId now d links seen).Every P := by
  induction links generalizing seen with
  | nil => trivial
  | cons link links ih =>
    refine .bind (every_cascadeLink hP hrecurse _ _ _ _ _) fun head => ?_
    exact .bind (ih _) fun _ => trivial

theorem every_cascade (depth : Nat) (taskId : String) (seen : List String) (d : Draws) :
    (cascadeOnTaskTermination depth taskId seen d).Every P := by
  induction depth generalizing taskId seen d with
  | zero => trivial
  | succ depth ih =>
    unfold cascadeOnTaskTermination
    split
    · trivial
    · refine .bind (Sql.every_select hP.toPlainOps _) fun links => ?_
      refine .bind (every_cascadeLinks hP ih _ _ _ _ _) fun out => ?_
      exact .bind (Sql.every_commit hP.toPlainOps) fun _ => trivial

end Every

/-! ### What the cascade raises -/

section Throws

/-- The only way out of a cascade but its end is the recursion limit. -/
def IsRecursionError (e : Exn) : Prop := e = .recursionError

variable {recurse : Cascade} (hrecurse : ∀ t seen d, (recurse t seen d).Throws IsRecursionError)
include hrecurse

theorem throws_cascadeChild (taskId : String) (link : Link) (child : Task) (seen : List String)
    (d : Draws) : (cascadeChild recurse taskId link child seen d).Throws IsRecursionError := by
  refine .ite (fun _ => .ite (fun _ => by trivial) fun _ => ?_) fun _ =>
    .ite (fun _ => ?_) fun _ => by trivial
  · refine .bind (TaskService.throws_cancelTask _ _) fun updated => ?_
    cases updated with
    | none => trivial
    | some _ => exact .bind (hrecurse _ _ _) fun _ => trivial
  · refine .bind (TaskRepo.throws_update _ _ _ _) fun updated => ?_
    cases updated with
    | none => trivial
    | some _ => exact .bind Sql.throws_record fun _ => trivial

theorem throws_cascadeLinks (taskId : String) (now : Nat) (d : Draws) (links : List Link)
    (seen : List String) :
    (cascadeLinks recurse taskId now d links seen).Throws IsRecursionError := by
  induction links generalizing seen with
  | nil => trivial
  | cons link links ih =>
    refine .bind (.bind (Coro.throws_perform _ _) fun _ => .ite (fun _ => by trivial) fun _ =>
      .bind (Coro.throws_perform _ _) fun child => ?_) fun _ => .bind (ih _) fun _ => trivial
    cases child with
    | none => trivial
    | some child =>
      exact .bind (throws_cascadeChild hrecurse _ _ _ _ _) fun _ => trivial

omit hrecurse in
theorem throws_cascade (depth : Nat) (taskId : String) (seen : List String) (d : Draws) :
    (cascadeOnTaskTermination depth taskId seen d).Throws IsRecursionError := by
  induction depth generalizing taskId seen d with
  | zero => exact (rfl : Exn.recursionError = .recursionError)
  | succ depth ih =>
    refine .ite (fun _ => by trivial) fun _ => .bind (Coro.throws_perform _ _) fun _ => ?_
    exact .bind (throws_cascadeLinks ih _ _ _ _ _) fun _ => .bind Sql.throws_commit fun _ => trivial

end Throws

/-! ### What the cascade keeps -/

/-- What the parts of a cascade keep, the dependency being taken out of a row that was just read. -/
structure CascadeKeeps (R : Db → Db → Prop) : Prop where
  revoke : ∀ id now db, R db (Op.exec (.revokeLink id now) db)
  cancel : ∀ taskId d db, Sql.Keeps R (TaskService.cancelTask taskId d) db
  unblock : ∀ (child : Task) upstream now db, db.tasks.get child.id = some child →
    R db (Op.exec (.updateTask child.id (.patch
      { dependsOnTaskIds := some (child.dependsOnTaskIds.filter (· ≠ upstream)) } now) none none) db)

section Keeps

variable {R : Db → Db → Prop} [IsPreorder Db R] (hR : CascadeKeeps R) {recurse : Cascade}
include hR

theorem keeps_cascadeChild (hrecurse : ∀ t seen d db, Sql.Keeps R (recurse t seen d) db)
    {child : Task} {db : Db} (hchild : db.tasks.get child.id = some child) (taskId : String)
    (link : Link) (seen : List String) (d : Draws) :
    Sql.Keeps R (cascadeChild recurse taskId link child seen d) db := by
  refine Coro.Keeps.ite (fun _ => .ite (fun _ => refl_of R db) fun _ => ?_) fun _ =>
    .ite (fun _ => ?_) fun _ => refl_of R db
  · refine .bind (hR.cancel _ _ db) fun updated db' _ => ?_
    cases updated with
    | none => exact refl_of R db'
    | some _ => exact Sql.keeps_bind_last (hrecurse _ _ _ db') fun _ => trivial
  · refine Sql.keeps_bind_last ?_ fun updated => ?_
    · exact TaskRepo.keeps_update (hR.unblock child taskId _ db hchild)
    · cases updated with
      | none => trivial
      | some _ => exact .bind (Sql.every_record plainOps_isPlain) fun _ => trivial

theorem keeps_cascadeLink (hrecurse : ∀ t seen d db, Sql.Keeps R (recurse t seen d) db)
    (taskId : String) (now : Nat) (link : Link) (seen : List String) (d : Draws) (db : Db) :
    Sql.Keeps R (cascadeLink recurse taskId now link seen d) db := by
  refine Coro.Keeps.bind (hR.revoke _ _ db) fun _ db' _ => ?_
  refine Coro.Keeps.ite (fun _ => refl_of R db') fun _ => TaskRepo.keeps_get ?_
  cases hchild : db'.tasks.get link.toTaskId with
  | none => exact refl_of R db'
  | some child =>
    have hid : child.id = link.toTaskId := Table.key_eq_of_get hchild
    refine Sql.keeps_bind_last ?_ fun _ => trivial
    exact keeps_cascadeChild hR hrecurse (hid ▸ hchild) taskId link seen d

theorem keeps_cascadeLinks (hrecurse : ∀ t seen d db, Sql.Keeps R (recurse t seen d) db)
    (taskId : String) (now : Nat) (d : Draws) (links : List Link) (seen : List String) (db : Db) :
    Sql.Keeps R (cascadeLinks recurse taskId now d links seen) db := by
  induction links generalizing seen db with
  | nil => exact refl_of R db
  | cons link links ih =>
    refine Coro.Keeps.bind (keeps_cascadeLink hR hrecurse _ _ _ _ _ db) fun head db' _ => ?_
    exact Sql.keeps_bind_last (ih _ db') fun _ => trivial

theorem keeps_cascade (depth : Nat) (taskId : String) (seen : List String) (d : Draws) (db : Db) :
    Sql.Keeps R (cascadeOnTaskTermination depth taskId seen d) db := by
  induction depth generalizing taskId seen d db with
  | zero => exact refl_of R db
  | succ depth ih =>
    refine Coro.Keeps.ite (fun _ => refl_of R db) fun _ => ?_
    refine Sql.keeps_bind_plain (Sql.every_select plainOps_isPlain _) fun links => ?_
    refine Sql.keeps_bind_last (keeps_cascadeLinks hR ih _ _ _ _ _ db) fun _ => ?_
    exact .bind (Sql.every_commit plainOps_isPlain) fun _ => trivial

end Keeps

end Krewhub
