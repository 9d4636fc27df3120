import Krewhub.Base.Interleave
import Krewhub.Base.Passages
import Krewhub.Controllers.LinkReconciler
import Krewhub.Routes.Tasks

/-!
# What is appended to a prompt

Pipes, operator answers and review rejections each read the description of a task, append a block to it
and write the whole description back. Where every description is written over the one it was made from,
the description carries all the blocks, one for each append; a description written over a newer one
takes away what has been appended in between.
-/

namespace Krewhub

/-- What is appended to the prompt of a task: the output of an upstream along a link, the answer of an
operator, or the reason of a rejection. -/
inductive Append where
  | upstream (task : Task) (link : Link) (content : Option String)
  | answer (accountId answer : String)
  | rejection (accountId reason : String)

namespace Append

/-- The block it adds. -/
def block : Append → String
  | .upstream task link content => LinkReconcileController.pipeBlock task link content
  | .answer accountId text => s!"\n[OPERATOR ({accountId}) ANSWER]\n{text}"
  | .rejection accountId reason => s!"\n\n[REVIEW REJECTED by {accountId}]\n{reason}"

/-- The description with the block. -/
def apply (append : Append) (description : Option String) : String :=
  match append with
  | .upstream .. => LinkReconcileController.appendedDescription description append.block
  | .answer .. =>
    match description with
    | none => append.block
    | some text => if text = "" then append.block else s!"{Text.rstrip text}\n{append.block}"
  | .rejection .. => Text.strip (Text.rstrip (description.getD "") ++ append.block)

/-- The description with one block after another. -/
def applyAll (description : Option String) (appends : List Append) : Option String :=
  appends.foldl (fun description append => some (append.apply description)) description

theorem applyAll_concat (description : Option String) (appends : List Append) (append : Append) :
    applyAll description (appends ++ [append]) = some (append.apply (applyAll description appends)) := by
  rw [applyAll, List.foldl_append, applyAll]
  rfl

end Append

/-- A tick of the link reconciler, or a request. -/
inductive AppendCall where
  | tick (d : Draws)
  | request (depth : Nat) (req : TaskRequest) (caller : CallerContext) (d : Draws)

namespace AppendCall

def program : AppendCall → Sql Unit
  | .tick d => LinkReconcileController.reconcile d
  | .request depth req caller d => req.handle depth caller d

/-- What a request that completes appends to the prompt of the task. -/
def append? (taskId : String) : AppendCall → Option Append
  | .request _ (.hitlAnswer id answer) caller _ =>
    if id = taskId then some (.answer caller.accountId (Text.strip answer)) else none
  | .request _ (.review id req) caller _ =>
    if id = taskId ∧ Text.lower (Text.strip req.action) = "reject" ∧ orElseText req.reason "" ≠ "" then
      some (.rejection caller.accountId (orElseText req.reason ""))
    else none
  | _ => none

/-- The call may append this to the prompt of the task: a tick the output of an upstream along a link to
the task, a request what it stands for. -/
def Makes (taskId : String) : AppendCall → Append → Prop
  | .tick _, .upstream task link _ => link.fromTaskId = task.id ∧ link.toTaskId = taskId
  | .tick _, _ => False
  | call, append => call.append? taskId = some append

/-- What has come of the call once it has ended: a request has appended exactly what it stands for, one
that has raised nothing. -/
def Completes (taskId : String) (call : AppendCall) (r : Except Exn Unit)
    (made : List Append) : Prop :=
  match call with
  | .tick _ => True
  | .request .. => made = match r with
    | .ok _ => (call.append? taskId).toList
    | .error _ => []

/-- An edit of the description by hand. -/
def EditsDescription (taskId : String) : AppendCall → Prop
  | .request _ (.edit id _ description _) _ _ => id = taskId ∧ description.isSome
  | _ => False

end AppendCall

/-- A description as a coroutine has read it, and the one it writes. -/
structure Revision where
  before : Option String
  after : String

/-- The description an operation writes to the task. -/
def revisionOf (taskId : String) : Op → Option Revision
  | .updateTask id u _ seen =>
    if id = taskId then u.description?.map fun after => ⟨seen.bind (·.description), after⟩ else none
  | _ => none

/-- The database, and the descriptions that have been written to one task. -/
structure Revised where
  db : Db
  revisions : List Revision := []

namespace Revised

def exec (taskId : String) (op : Op) (s : Revised) : Revised where
  db := op.exec s.db
  revisions := s.revisions ++ (revisionOf taskId op).toList

end Revised

/-- The calls side by side; none has begun. -/
def appendPool {ι : Type} (calls : ι → AppendCall) (db : Db) :
    Pool ι Revised Op Exn (Except Exn Unit) :=
  .init (fun i => (calls i).program.attempt.on Revised.db) { db := db }

/-- A description is written over the one it was made from. -/
def WrittenOverRead {ι : Type} (taskId : String) (s : Revised) (_ : ι) (op : Op) : Prop :=
  ∀ revision ∈ revisionOf taskId op,
    (s.db.tasks.get taskId).bind (·.description) = revision.before

instance {ι : Type} (taskId : String) (s : Revised) (i : ι) (op : Op) :
    Decidable (WrittenOverRead taskId s i op) :=
  inferInstanceAs (Decidable (∀ revision ∈ revisionOf taskId op, _))

/-! ### What the calls write -/

/-- The operation writes no description of the task, and adds and takes away no task. -/
def Quiet (taskId : String) : Op → Prop
  | .insertTask _ | .deleteTask _ => False
  | .updateTask id u _ _ => id = taskId → u.description? = none
  | _ => True

section Quiet

variable {taskId : String}

theorem plainOps_quiet : PlainOps (Quiet taskId) := ⟨trivial, trivial, trivial⟩

theorem eventOps_quiet (id : String) : TaskService.EventOps (Quiet taskId) id :=
  ⟨fun _ _ => rfl, fun _ _ _ _ => rfl, fun _ => trivial⟩

theorem workOps_quiet : WorkOps (Quiet taskId) where
  toPlainOps := plainOps_quiet
  revoke _ _ := trivial
  cancel _ _ _ _ _ := rfl
  unblock _ _ _ _ _ := rfl
  events := eventOps_quiet
  park _ _ _ _ _ := rfl
  finish _ _ _ _ _ := rfl
  block _ _ _ _ _ := rfl
  claim _ _ _ _ _ _ _ := rfl
  completion _ _ _ _ _ _ := rfl
  followup _ _ _ _ := rfl

theorem revisionOf_of_quiet {op : Op} (hop : Quiet taskId op) : revisionOf taskId op = none := by
  cases op
  case updateTask id u expected seen =>
    rw [revisionOf]
    split
    · rename_i hid
      rw [hop hid]
      rfl
    · rfl
  all_goals rfl

end Quiet

/-! ### One append of a call -/

/-- The description of a row with an append, written over the description that was read. -/
def AppendWritten (taskId : String) (call : AppendCall) (op : Op) : Prop :=
  ∃ append u seen, op = .updateTask taskId u none (some seen) ∧
    u.description? = some (append.apply seen.description) ∧ call.Makes taskId append

def appendAllowed (taskId : String) (call : AppendCall) (_ : Nat) (op : Op) : Prop :=
  Quiet taskId op ∨ AppendWritten taskId call op

/-- How many descriptions have been written. -/
def appendAdvance (taskId : String) (n : Nat) (op : Op) (_ : Db) : Nat :=
  n + (revisionOf taskId op).toList.length

/-- `k` descriptions have been written by what has returned, none by what has raised. -/
def Ended {α : Type} (k n : Nat) (r : Except Exn α) : Prop :=
  n = match r with
    | .ok _ => k
    | .error _ => 0

/-- How many descriptions a call has written once it has ended. -/
def AppendCall.Counts (taskId : String) (call : AppendCall) (n : Nat) (r : Except Exn Unit) : Prop :=
  match call with
  | .tick _ => True
  | .request .. => Ended (call.append? taskId).toList.length n r

/-- The protocol of a call. -/
def appendProtocol {ι : Type} (taskId : String) (calls : ι → AppendCall) :
    Protocol ι Revised Op (Except Exn Unit) Nat where
  start := 0
  allowed i := appendAllowed taskId (calls i)
  advance n op s := appendAdvance taskId n op s.db
  final i := (calls i).Counts taskId

/-- A part of a call, from a number of descriptions on. -/
abbrev Appends {α : Type} (taskId : String) (call : AppendCall)
    (final : Nat → Except Exn α → Prop) (n : Nat) (c : Sql α) : Prop :=
  c.attempt.Follows (appendAllowed taskId call) (appendAdvance taskId) final n

section Follows

variable {taskId : String} {call : AppendCall} {n : Nat} {α β : Type}

theorem appendAdvance_of_quiet {op : Op} (hop : Quiet taskId op) (n : Nat) (db : Db) :
    appendAdvance taskId n op db = n := by
  rw [appendAdvance, revisionOf_of_quiet hop]
  rfl

theorem appends_of_every {final : Nat → Except Exn α → Prop} {c : Sql α}
    (hc : c.Every (Quiet taskId)) (hfinal : ∀ r, final n r) : Appends taskId call final n c :=
  .of_every hc.attempt (fun _ hop => .inl hop) (fun _ hop s => appendAdvance_of_quiet hop n s) hfinal

/-- What writes no description may come first. -/
theorem Appends.quiet_bind {final : Nat → Except Exn β → Prop} {c : Sql α} {f : α → Sql β}
    (hc : c.Every (Quiet taskId)) (hf : ∀ a, Appends taskId call final n (f a))
    (herror : ∀ e, final n (.error e)) : Appends taskId call final n (c >>= f) := by
  refine Coro.Follows.attempt_bind (M := fun n' _ => n' = n) (appends_of_every hc fun _ => rfl)
    (fun n' a hn => ?_) fun n' e hn => ?_
  · rw [hn]
    exact hf a
  · rw [hn]
    exact herror e

/-- One description written, and what cannot fail after it. -/
theorem appends_written {final : Nat → Except Exn α → Prop} {op : Op} {f : Db → Sql α}
    (hop : AppendWritten taskId call op) (hf : ∀ db, (f db).Every (Quiet taskId))
    (hthrows : ∀ db, (f db).Throws fun _ => False) (hfinal : ∀ a, final (n + 1) (.ok a)) :
    Appends taskId call final n (.await op f) := by
  refine ⟨.inr hop, fun db => ?_⟩
  have hone : appendAdvance taskId n op db = n + 1 := by
    obtain ⟨append, u, seen, rfl, hdescription, _⟩ := hop
    rw [appendAdvance, revisionOf, if_pos rfl, hdescription]
    rfl
  rw [hone]
  refine (Coro.Follows.attempt_of_every (hf db) (hthrows db) (fun _ hop => .inl hop)
    fun _ hop s => appendAdvance_of_quiet hop _ s).mono fun n' r hr => ?_
  obtain ⟨rfl, herror⟩ := hr
  cases r with
  | ok a => exact hfinal a
  | error e => exact (herror e rfl).elim

theorem isEmpty_of_status {patch : TaskPatch} {status : TaskStatus}
    (hstatus : patch.status = some status) : patch.isEmpty = false := by
  rw [TaskPatch.isEmpty, decide_eq_false_iff_not]
  rintro rfl
  cases hstatus

theorem appends_update {final : Nat → Except Exn α → Prop} {patch : TaskPatch} {seen : Option Task}
    {d : Draws} {f : Option Task → Sql α} (hpatch : patch.isEmpty = false)
    (hop : AppendWritten taskId call (.updateTask taskId (.patch patch d.clock) none seen))
    (hf : ∀ updated, (f updated).Every (Quiet taskId))
    (hthrows : ∀ updated, (f updated).Throws fun _ => False)
    (hfinal : ∀ a, final (n + 1) (.ok a)) :
    Appends taskId call final n (TaskRepo.update taskId patch none seen d >>= f) := by
  have hupdate : TaskRepo.update taskId patch none seen d =
      .await (.updateTask taskId (.patch patch d.clock) none seen)
        fun _ => Sql.commit >>= fun _ => TaskRepo.get taskId := by
    rw [TaskRepo.update, hpatch]
    rfl
  rw [hupdate, Coro.await_bind]
  refine appends_written hop (fun _ => ?_) (fun _ => ?_) hfinal
  · exact .bind (.bind (Sql.every_commit plainOps_quiet) fun _ =>
      TaskRepo.every_get plainOps_quiet _) hf
  · exact .bind (.bind Sql.throws_commit fun _ => Coro.throws_perform _ _) hthrows

theorem Appends.discard {k : Nat} {c : Sql α} (hc : Appends taskId call (Ended k) n c) :
    Appends taskId call (Ended k) n (discard c) := by
  show Appends taskId call (Ended k) n (c >>= fun _ => pure ())
  exact Coro.Follows.attempt_bind hc (fun n' a hn => hn) fun n' e hn => hn

/-- A request that writes no description. -/
theorem appends_none {c : Sql α} (hc : c.Every (Quiet taskId)) :
    Appends taskId call (Ended 0) 0 c :=
  appends_of_every hc fun r => by cases r <;> rfl

section Requests

variable {depth : Nat} {caller : CallerContext} {d d' : Draws}

theorem appends_postTaskHitlAnswer (answer : String) :
    Appends taskId (.request depth (.hitlAnswer taskId answer) caller d') (Ended 1) 0
      (postTaskHitlAnswer taskId answer caller d) := by
  have hplain : PlainOps (Quiet taskId) := plainOps_quiet
  have hmakes : (AppendCall.request depth (.hitlAnswer taskId answer) caller d').Makes taskId
      (.answer caller.accountId (Text.strip answer)) := if_pos rfl
  refine .attempt_ite (fun _ => rfl) fun _ => ?_
  refine Appends.quiet_bind (every_taskOr404 hplain _) (fun task => ?_) fun _ => rfl
  refine Appends.quiet_bind (every_authorizeTaskMutation hplain _ _) (fun _ => ?_) fun _ => rfl
  refine .attempt_ite (fun _ => rfl) fun _ => ?_
  refine Appends.quiet_bind (TaskService.every_cookbookIdForBundle hplain _) (fun _ => ?_) fun _ => rfl
  have htail : ∀ (record : Bool) (d : Draws),
      Appends taskId (.request depth (.hitlAnswer taskId answer) caller d') (Ended 1) 0 (do
        let updated ← TaskRepo.update taskId
          { status := some .open_,
            description := some (answeredDescription task caller.accountId (Text.strip answer)),
            clearClaim := true, clearBlockedReason := true } none (some task) d
        if updated.isSome && record then Sql.record
        return updated) := by
    intro record d
    refine appends_update (isEmpty_of_status rfl) ⟨_, _, _, rfl, rfl, hmakes⟩ (fun _ => ?_) (fun _ => ?_) fun _ => rfl
    · exact .ite (fun _ => .bind (Sql.every_record hplain) fun _ => trivial) fun _ => trivial
    · exact .ite (fun _ => .bind Sql.throws_record fun _ => trivial) fun _ => trivial
  refine .attempt_ite (fun _ => ?_) fun _ => htail _ _
  exact Appends.quiet_bind (TaskService.every_postEvent hplain (eventOps_quiet _) _ _ _)
    (fun _ => htail _ _) fun _ => rfl

theorem rejectedDescription_of_reject {task : Task} {req : TaskReviewRequest} {action : String}
    (hreject : action = "reject" ∧ orElseText req.reason "" ≠ "") (accountId : String) :
    rejectedDescription task req action accountId =
      some ((Append.rejection accountId (orElseText req.reason "")).apply task.description) :=
  if_pos hreject

/-- A rejection with a reason appends, any other review leaves the description alone. -/
theorem appends_reviewTask (req : TaskReviewRequest) :
    Appends taskId (.request depth (.review taskId req) caller d')
      (Ended ((AppendCall.request depth (.review taskId req) caller d').append? taskId).toList.length)
      0 (reviewTask taskId req caller d) := by
  have hplain : PlainOps (Quiet taskId) := plainOps_quiet
  by_cases hreject : Text.lower (Text.strip req.action) = "reject" ∧ orElseText req.reason "" ≠ ""
  · have happend : (AppendCall.request depth (.review taskId req) caller d').append? taskId =
        some (.rejection caller.accountId (orElseText req.reason "")) := if_pos ⟨rfl, hreject⟩
    rw [happend]
    refine .attempt_ite (fun _ => rfl) fun _ => ?_
    refine Appends.quiet_bind (every_taskOr404 hplain _) (fun task => ?_) fun _ => rfl
    refine Appends.quiet_bind (every_requireBundleOwner hplain _ _) (fun _ => ?_) fun _ => rfl
    refine .attempt_ite (fun _ => rfl) fun _ => ?_
    refine Appends.quiet_bind (Sql.every_checked trivial _ _) (fun _ => ?_) fun _ => rfl
    refine appends_update (isEmpty_of_status rfl) ⟨_, _, _, rfl, rejectedDescription_of_reject hreject _, happend⟩ (fun _ => ?_) (fun _ => ?_)
      fun _ => rfl
    · exact .bind (Sql.every_commit hplain) fun _ =>
        .bind (TaskService.every_recordUpdated hplain _) fun _ => trivial
    · exact .bind Sql.throws_commit fun _ =>
        .bind (TaskService.throws_recordUpdated _) fun _ => trivial
  · have happend : (AppendCall.request depth (.review taskId req) caller d').append? taskId =
        none := if_neg fun h => hreject h.2
    rw [happend]
    exact appends_none (every_reviewTask workOps_quiet (fun _ => trivial)
      (fun _ _ _ _ => if_neg hreject) _)

theorem appends_handle {req : TaskRequest}
    (hedit : ¬ (AppendCall.request depth req caller d).EditsDescription taskId) :
    Appends taskId (.request depth req caller d)
      (Ended ((AppendCall.request depth req caller d).append? taskId).toList.length) 0
      (req.handle depth caller d) := by
  have hops : WorkOps (Quiet taskId) := workOps_quiet
  cases req with
  | events => exact (appends_none (every_postTaskEvent hops _ _ _ _)).discard
  | eventsBatch => exact (appends_none (every_postTaskEventsBatch hops _ _ _ _ _)).discard
  | status => exact (appends_none (every_updateTaskStatus hops _ _ _ _ _)).discard
  | claim => exact (appends_none (every_claimTask hops _ _ _ _)).discard
  | completion => exact (appends_none (every_postTaskCompletion hops _ _ _)).discard
  | cancel => exact (appends_none (every_cancelTask hops _ _ _ _)).discard
  | followup => exact (appends_none (every_appendTaskFollowup hops _ _ _ _)).discard
  | hitlAnswer id answer =>
    by_cases hid : id = taskId
    · subst hid
      rw [AppendCall.append?, if_pos rfl]
      exact (appends_postTaskHitlAnswer answer).discard
    · rw [AppendCall.append?, if_neg hid]
      exact (appends_none (every_postTaskHitlAnswer hops (fun _ _ _ _ _ h => absurd h hid) _ _ _)).discard
  | edit id title description deps =>
    refine (appends_none (every_editTask hops (fun _ hid => ?_) _ _)).discard
    exact Option.not_isSome_iff_eq_none.mp fun hsome => hedit ⟨hid, hsome⟩
  | review id req =>
    by_cases hid : id = taskId
    · subst hid
      exact (appends_reviewTask req).discard
    · rw [AppendCall.append?, if_neg fun h => hid h.1]
      exact (appends_none (every_reviewTask hops (fun _ => trivial)
        (fun _ _ _ h => absurd h hid) _)).discard

end Requests

section Tick

open LinkReconcileController

variable (link : Link) (d d' : Draws)

/-- What a pipe injects is an append, or leaves the description of the task alone. -/
theorem appendAllowed_injection {upstream downstream : Task}
    (hfrom : link.fromTaskId = upstream.id) (hto : link.toTaskId = downstream.id)
    (content : Option String) (n : Nat) :
    appendAllowed taskId (.tick d) n (.updateTask downstream.id
      (injection link downstream (pipeBlock upstream link content)) none (some downstream)) := by
  have hdescription : appendAllowed taskId (.tick d) n (.updateTask downstream.id
      (.injectDescription link
        (appendedDescription downstream.description (pipeBlock upstream link content))) none
      (some downstream)) := by
    by_cases hid : downstream.id = taskId
    · rw [hid]
      exact .inr ⟨.upstream upstream link content, _, _, rfl, rfl, hfrom, hto.trans hid⟩
    · exact .inl fun h => absurd h hid
  unfold injection
  split
  · split
    · exact .inl fun _ => rfl
    · exact hdescription
  · exact hdescription

theorem appends_firePipe {upstream : Task} (hfrom : link.fromTaskId = upstream.id) :
    Appends taskId (.tick d) (fun _ _ => True) n (firePipe link upstream d') := by
  have hplain : PlainOps (Quiet taskId) := plainOps_quiet
  have hmark := every_markLinkFired link d' hplain fun _ => trivial
  refine ⟨.inl trivial, fun db => ?_⟩
  dsimp only [Coro.bind]
  cases hdownstream : db.tasks.get link.toTaskId with
  | none => exact appends_of_every hmark fun _ => trivial
  | some downstream =>
    have hto : link.toTaskId = downstream.id := (Table.key_eq_of_get hdownstream).symm
    refine .attempt_ite (fun _ => appends_of_every hmark fun _ => trivial) fun _ => ?_
    refine Appends.quiet_bind (every_upstreamOutput hplain _ _) (fun content => ?_) fun _ => trivial
    refine ⟨appendAllowed_injection link d hfrom hto content n, fun db => ?_⟩
    have htail := every_narrateFired link d' hplain eventOps_quiet upstream downstream.id
    exact appends_of_every (hmark.bind fun _ => htail) fun _ => trivial

theorem appends_reconcileLink :
    Appends taskId (.tick d) (fun _ _ => True) n (reconcileLink link d') := by
  have hplain : PlainOps (Quiet taskId) := plainOps_quiet
  have hlink : Appends taskId (.tick d) (fun _ _ => True) n
      (if link.kind = "pipe" then maybeFirePipe link d' else maybeFlowReport link d') := by
    refine .attempt_ite (fun _ => ⟨.inl trivial, fun db => ?_⟩) fun _ => appends_of_every
      (every_maybeFlowReport link d' hplain (fun _ => trivial) fun _ => trivial) fun _ => trivial
    dsimp only [Coro.bind]
    cases hupstream : db.tasks.get link.fromTaskId with
    | none => trivial
    | some upstream =>
      exact .attempt_ite (fun _ => appends_firePipe link d d' (Table.key_eq_of_get hupstream).symm) fun _ => trivial
  exact Coro.Follows.attempt_tryCatch hlink (fun _ _ _ => trivial) fun _ _ _ => trivial

theorem appends_reconcile : Appends taskId (.tick d) (fun _ _ => True) n (reconcile d) := by
  have hlinks : ∀ (links : List Link) (n : Nat),
      Appends taskId (.tick d) (fun _ _ => True) n (reconcileLinks d links) := by
    intro links
    induction links with
    | nil => exact fun _ => trivial
    | cons link links ih =>
      exact fun n => Coro.Follows.attempt_bind (appends_reconcileLink link d _) (fun n' _ _ => ih n')
        fun _ _ _ => trivial
  exact Appends.quiet_bind (Sql.every_select plainOps_quiet _) (fun links => hlinks links n) fun _ => trivial

end Tick

end Follows

theorem AppendCall.appends_program {taskId : String} {call : AppendCall}
    (hedit : ¬ call.EditsDescription taskId) :
    Appends taskId call (call.Counts taskId) 0 call.program := by
  cases call with
  | tick d => exact appends_reconcile d
  | request depth req caller d => exact appends_handle hedit

/-! ### The blocks of a description -/

/-- The description carries the blocks of the appends one after another, each less the white space
around it. -/
def Carries (appends : List Append) (description : Option String) : Prop :=
  Passages (appends.map fun append => (Text.strip append.block).toList) (description.getD "").toList

section Carries

variable {appends : List Append} {description : Option String}

theorem trimmed_of_mem_blocks {block : List Char}
    (hblock : block ∈ appends.map fun append => (Text.strip append.block).toList) :
    Trimmed Text.isSpace block := by
  obtain ⟨append, _, rfl⟩ := List.mem_map.mp hblock
  exact Text.trimmed_toList_strip append.block

theorem Carries.apply (h : Carries appends description) (append : Append) :
    Carries (appends ++ [append]) (some (append.apply description)) := by
  have htrimmed := fun block => @trimmed_of_mem_blocks appends block
  have hblock : Passages [(Text.strip append.block).toList] append.block.toList :=
    passages_singleton.mpr (Text.isInfix_strip append.block)
  have hrstrip : Passages (appends.map fun append => (Text.strip append.block).toList)
      (Text.rstrip (description.getD "")).toList := by
    rw [Text.toList_rstrip]
    exact h.rdropWhile htrimmed
  have hstrip : ∀ text : String, Passages ((appends ++ [append]).map fun append =>
      (Text.strip append.block).toList) text.toList → Carries (appends ++ [append])
        (some (Text.strip text)) := by
    intro text htext
    rw [Carries, Option.getD_some, Text.toList_strip]
    exact (htext.dropWhile fun block => trimmed_of_mem_blocks).rdropWhile fun block =>
      trimmed_of_mem_blocks
  cases append with
  | upstream task link content =>
    refine hstrip _ ?_
    rw [List.map_append, String.toList_append, String.toList_append]
    exact (hrstrip.append_right _).append hblock
  | answer accountId text =>
    cases description with
    | none =>
      have hempty := h.append hblock
      rwa [Carries, List.map_append]
    | some old =>
      by_cases hold : old = ""
      · subst hold
        have hempty := h.append hblock
        rwa [Carries, List.map_append]
      · rw [Append.apply, if_neg hold, Carries, List.map_append, Option.getD_some,
          String.toList_append, String.toList_append]
        exact (hrstrip.append_right _).append hblock
  | rejection accountId reason =>
    refine hstrip _ ?_
    rw [List.map_append, String.toList_append]
    exact hrstrip.append hblock

end Carries

/-! ### Schedules -/

/-- The descriptions that have been written are those of the appends, one made from another, and every
call has made as many as it has written. -/
structure Written {ι : Type} [DecidableEq ι] (taskId : String) (calls : ι → AppendCall)
    (initial : Option String) (s : Revised) (q : ι → Nat) (appends : List (ι × Append)) : Prop where
  revisions : List.Forall₂ (fun revision entry => revision.after = entry.2.apply revision.before)
    s.revisions appends
  makes : ∀ entry ∈ appends, (calls entry.1).Makes taskId entry.2
  counts : ∀ i, (appends.filter (·.1 = i)).length = q i
  task : (s.db.tasks.get taskId).map (·.description) =
    some (Append.applyAll initial (appends.map (·.2)))
  carries : Carries (appends.map (·.2)) (Append.applyAll initial (appends.map (·.2)))

section Schedules

variable {ι : Type} [DecidableEq ι] {taskId : String} {calls : ι → AppendCall}
  {initial : Option String} {s : Revised} {q : ι → Nat} {appends : List (ι × Append)} {i : ι}

theorem description_of_quiet {op : Op} (hop : Quiet taskId op) (db : Db) :
    ((op.exec db).tasks.get taskId).map (·.description) =
      (db.tasks.get taskId).map (·.description) := by
  cases op
  case insertTask => cases hop
  case deleteTask => cases hop
  case updateTask id u expected seen =>
    rw [Op.get_exec_updateTask]
    split
    · rename_i hid
      rw [Option.map_map]
      congr 1
      funext t
      simp only [Function.comp]
      split
      · rw [TaskUpdate.apply_description, hop hid.symm]
        rfl
      · rfl
    · rfl
  case insertEvent event reported =>
    rw [(rowSafe_insertEvent event reported db).1]
  all_goals rfl

theorem Written.quiet {op : Op} (h : Written taskId calls initial s q appends)
    (hop : Quiet taskId op) :
    Written taskId calls initial (s.exec taskId op) q appends where
  revisions := by
    rw [Revised.exec, revisionOf_of_quiet hop]
    simpa using h.revisions
  makes := h.makes
  counts := h.counts
  task := by rw [Revised.exec, description_of_quiet hop, h.task]
  carries := h.carries

/-- A description written over the one it was made from. -/
theorem Written.append {op : Op} (h : Written taskId calls initial s q appends)
    (hop : AppendWritten taskId (calls i) op) (hover : WrittenOverRead taskId s i op) :
    ∃ append, Written taskId calls initial (s.exec taskId op) (Function.update q i (q i + 1))
      (appends ++ [(i, append)]) := by
  obtain ⟨append, u, seen, rfl, hdescription, hmakes⟩ := hop
  have hrevision : revisionOf taskId (.updateTask taskId u none (some seen)) =
      some ⟨seen.description, append.apply seen.description⟩ := by
    rw [revisionOf, if_pos rfl, hdescription]
    rfl
  obtain ⟨row, hrow, hcurrent⟩ := Option.map_eq_some_iff.mp h.task
  have hread : row.description = seen.description := by
    have hmeets := hover _ hrevision
    rwa [hrow] at hmeets
  have hall : Append.applyAll initial ((appends ++ [(i, append)]).map (·.2)) =
      some (append.apply seen.description) := by
    rw [List.map_append, List.map_singleton, Append.applyAll_concat, ← hcurrent, hread]
  refine ⟨append, ?_, ?_, fun j => ?_, ?_, ?_⟩
  · rw [Revised.exec, hrevision]
    exact List.rel_append h.revisions (.cons rfl .nil)
  · intro entry hentry
    rw [List.mem_append, List.mem_singleton] at hentry
    rcases hentry with hentry | rfl
    · exact h.makes entry hentry
    · exact hmakes
  · rw [List.filter_append, List.length_append, h.counts, Function.update_apply]
    by_cases hj : j = i
    · subst hj
      simp
    · simp [hj, Ne.symm hj]
  · rw [hall, Revised.exec, Op.get_updateTask_self hrow, Option.map_some,
      TaskUpdate.apply_description, hdescription]
    rfl
  · have hcarries := h.carries.apply append
    rw [← hcurrent, hread] at hcarries
    rw [hall, List.map_append]
    exact hcarries

theorem Written.step {op : Op} (h : Written taskId calls initial s q appends)
    (hallowed : appendAllowed taskId (calls i) (q i) op) (hover : WrittenOverRead taskId s i op) :
    ∃ appends, Written taskId calls initial (s.exec taskId op)
      (Function.update q i (appendAdvance taskId (q i) op s.db)) appends := by
  rcases hallowed with hop | hop
  · rw [appendAdvance_of_quiet hop, Function.update_eq_self]
    exact ⟨appends, h.quiet hop⟩
  · obtain ⟨append, happended⟩ := h.append hop hover
    have hone : appendAdvance taskId (q i) op s.db = q i + 1 := by
      obtain ⟨_, u, _, rfl, hdescription, _⟩ := hop
      rw [appendAdvance, revisionOf, if_pos rfl, hdescription]
      rfl
    rw [hone]
    exact ⟨_, happended⟩

/-- The appends of one call. -/
def madeBy (i : ι) (appends : List (ι × Append)) : List Append :=
  (appends.filter (·.1 = i)).map (·.2)

theorem Written.completes {r : Except Exn Unit} (h : Written taskId calls initial s q appends)
    (hcounts : (calls i).Counts taskId (q i) r) :
    (calls i).Completes taskId r (madeBy i appends) := by
  have hlength : (madeBy i appends).length = q i := by
    rw [madeBy, List.length_map]
    exact h.counts i
  have hmakes : ∀ append ∈ madeBy i appends, (calls i).Makes taskId append := by
    intro append happend
    obtain ⟨⟨j, append⟩, hentry, rfl⟩ := List.mem_map.mp happend
    obtain ⟨hmem, hj⟩ := List.mem_filter.mp hentry
    rw [← of_decide_eq_true hj]
    exact h.makes _ hmem
  cases hcall : calls i with
  | tick d => trivial
  | request depth req caller d =>
    rw [hcall] at hcounts hmakes
    cases r with
    | error e => exact List.eq_nil_of_length_eq_zero (hlength.trans hcounts)
    | ok _ =>
      have hmade : (madeBy i appends).length =
          ((AppendCall.request depth req caller d).append? taskId).toList.length :=
        hlength.trans hcounts
      show madeBy i appends = ((AppendCall.request depth req caller d).append? taskId).toList
      cases happend : (AppendCall.request depth req caller d).append? taskId with
      | none =>
        rw [happend] at hmade
        exact List.eq_nil_of_length_eq_zero hmade
      | some append =>
        rw [happend] at hmade
        obtain ⟨made, honly⟩ := List.length_eq_one_iff.mp hmade
        have hmade : (AppendCall.request depth req caller d).append? taskId = some made :=
          hmakes made (by rw [honly]; exact List.mem_singleton_self _)
        rw [honly, Option.some.inj (happend.symm.trans hmade)]
        rfl

/-- In every schedule of ticks and requests in which nobody edits the description by hand and every
description is written over the one it was made from, the description is what the appends make of the
first one, and it carries the block of each of them. There is one append for every description that has
been written; a request that has completed has made exactly its own. -/
theorem appends_kept {db : Db} {task : Task} {schedule : List ι}
    (htask : db.tasks.get taskId = some task)
    (hedit : ∀ i, ¬ (calls i).EditsDescription taskId)
    (hover : Pool.Along (Revised.exec taskId) id (WrittenOverRead taskId) (appendPool calls db)
      (schedule.map .run)) :
    let reached := (appendPool calls db).run (Revised.exec taskId) id (schedule.map .run)
    ∃ appends : List (ι × Append),
      List.Forall₂ (fun revision entry => revision.after = entry.2.apply revision.before)
        reached.state.revisions appends ∧
      (∀ entry ∈ appends, (calls entry.1).Makes taskId entry.2) ∧
      (∀ i r, reached.returned i r → (calls i).Completes taskId r (madeBy i appends)) ∧
      ∃ description, description = Append.applyAll task.description (appends.map (·.2)) ∧
        (reached.state.db.tasks.get taskId).map (·.description) = some description ∧
        Carries (appends.map (·.2)) description := by
  intro reached
  have hobeys : Pool.Obeys (appendProtocol taskId calls) (appendPool calls db) fun _ => 0 :=
    Pool.obeys_init (fun i => (AppendCall.appends_program (hedit i)).on Revised.db) _
  have hstart : Written taskId calls task.description { db := db } (fun _ => 0) [] := by
    refine ⟨.nil, by simp, fun _ => rfl, ?_, trivial⟩
    rw [htask]
    rfl
  have hrun : ∃ q, Pool.Obeys (appendProtocol taskId calls) reached q ∧
      ∃ appends, Written taskId calls task.description reached.state q appends :=
    Pool.inv_run_id (I := fun s q => ∃ appends, Written taskId calls task.description s q appends)
      (fun _ _ _ _ ⟨_, h⟩ hallowed hstep => h.step hallowed hstep) hobeys ⟨[], hstart⟩ hover
  obtain ⟨q, hobeys', appends, h⟩ := hrun
  refine ⟨appends, h.revisions, h.makes, fun i r hreturned => ?_, _, rfl, h.task, h.carries⟩
  exact h.completes ((hobeys' i).2 _ hreturned)

end Schedules

/-! ### A pipe beside an answer -/

/-- A tick of the link reconciler, and an operator who answers the blocked task. -/
def pipeAndAnswer (i : Nat) : AppendCall :=
  if i = 0 then .tick (pathDraws 'a')
  else .request 0 (.hitlAnswer "task_b" "Use staging.") { accountId := "acc_1" } (pathDraws 'b')

theorem appends_kept_in_turn :
    let reached := (appendPool pipeAndAnswer (pipedDb .blocked)).run (Revised.exec "task_b") id
      ((List.replicate 20 0 ++ List.replicate 20 1).map .run)
    ∃ appends : List (Nat × Append),
      List.Forall₂ (fun revision entry => revision.after = entry.2.apply revision.before)
        reached.state.revisions appends ∧
      (∀ entry ∈ appends, (pipeAndAnswer entry.1).Makes "task_b" entry.2) ∧
      (∀ i r, reached.returned i r → (pipeAndAnswer i).Completes "task_b" r (madeBy i appends)) ∧
      ∃ description, description = Append.applyAll (some "Deploy.") (appends.map (·.2)) ∧
        (reached.state.db.tasks.get "task_b").map (·.description) = some description ∧
        Carries (appends.map (·.2)) description :=
  appends_kept (show (pipedDb .blocked).tasks.get "task_b" = some (pipedTask .blocked) by decide +kernel)
    (fun i => by unfold pipeAndAnswer; split <;> exact id) (by decide +kernel)

/-- The answer comes after the tick has read the description. -/
def answeredMeanwhile : List Nat := List.replicate 3 0 ++ List.replicate 20 1 ++ List.replicate 20 0

/-- Both calls complete, and the description carries the output and no answer. -/
theorem answer_lost :
    let reached := (appendPool pipeAndAnswer (pipedDb .blocked)).run (Revised.exec "task_b") id
      (answeredMeanwhile.map .run)
    (reached.hasReturned 0 && reached.hasReturned 1) = true ∧
      reached.state.revisions.map (·.after) =
        ["Deploy.\n\n[OPERATOR (acc_1) ANSWER]\nUse staging.",
          "Deploy.\n\n[UPSTREAM OUTPUT · task_a via link link_1]\nstatus: ok"] ∧
      (reached.state.db.tasks.get "task_b").map (·.description) =
        some (some "Deploy.\n\n[UPSTREAM OUTPUT · task_a via link link_1]\nstatus: ok") := by
  decide +kernel

end Krewhub
