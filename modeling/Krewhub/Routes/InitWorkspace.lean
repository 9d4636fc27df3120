import Krewhub.Base.Guarded
import Krewhub.Routes.CookbookSharing
import Krewhub.Services.BundleService

/-!
# The starter bundle of a new account

`POST /me/init-workspace` makes sure that the caller has a cookbook, and puts one starter bundle in where the cookbook
has none. The front end calls it on every load, so calls of one account come at the same time. The bundle is created
behind a lock per cookbook with a second look inside of it; the statements all go over the one connection of the
process, and a call may be cancelled at any of them, with the lock held or a row on its way.

What fails while the bundle is created is swallowed. A call carries the point at which it fails, if it does.
-/

namespace Krewhub

/-! ### Tables and statements -/

structure WorkspaceDb where
  db : Db := {}
  cookbooks : Table Cookbook := ∅

inductive WorkspaceOp where
  | sql (op : Op)
  | selectCookbooks
  | insertCookbook (cookbook : Cookbook)

def WorkspaceOp.exec : WorkspaceOp → WorkspaceDb → WorkspaceDb
  | .sql op, s => { s with db := op.exec s.db }
  | .selectCookbooks, s => s
  | .insertCookbook cookbook, s => { s with cookbooks := s.cookbooks.insert cookbook }

abbrev Workspace (α : Type) := Coro WorkspaceDb WorkspaceOp Exn α

def Workspace.sql {α : Type} (c : Sql α) : Workspace α := c.within WorkspaceDb.db .sql

/-! ### Repositories -/

def CookbookRepo.findByNameAndOwner (name ownerId : String) : Workspace (Option Cookbook) :=
  .perform .selectCookbooks fun s => s.cookbooks.rows.find? fun c => c.name == name && c.ownerId == ownerId

def CookbookRepo.create (cookbook : Cookbook) : Workspace Cookbook := do
  .await (.insertCookbook cookbook) fun s =>
    if (s.cookbooks.get cookbook.id).isNone then .done () else .raise (.integrityError "cookbooks")
  Workspace.sql Sql.commit
  return cookbook

/-- `WHERE cookbook_id = ?` has a row. -/
def HasBundle (db : Db) (cookbookId : String) : Prop := ∃ b ∈ db.bundles.rows, b.cookbookId = some cookbookId

instance (db : Db) (cookbookId : String) : Decidable (HasBundle db cookbookId) :=
  inferInstanceAs (Decidable (∃ b ∈ db.bundles.rows, _))

def BundleRepo.hasAnyForCookbook (cookbookId : String) : Sql Bool :=
  .select fun db => decide (HasBundle db cookbookId)

/-! ### The endpoint -/

/-- The coroutine with an exception in the place of one of its statements. -/
def Coro.failAt {σ Op ε α : Type} (e : ε) : Nat → Coro σ Op ε α → Coro σ Op ε α
  | _, .done a => .done a
  | _, .raise e' => .raise e'
  | 0, .await _ _ => .raise e
  | n + 1, .await op next => .await op fun s => (next s).failAt e n

/-- A call, what it draws, and where and how the creation of its bundle fails. -/
structure InitCall where
  accountId : String
  now : Datetime
  d : Draws
  fault : Option (Nat × Exn) := none

namespace InitCall

variable (call : InitCall)

/-- The bundle the call creates has this identifier. -/
def starterId : String := (call.d.sub 1).hexId "bun_" 8

/-- The cookbook of the caller; the repository on the disk is an await. -/
def ensureCookbook : Workspace Cookbook := do
  match ← CookbookRepo.findByNameAndOwner "my-cookbook" call.accountId with
  | some cookbook => return cookbook
  | none =>
    .perform (.sql .aside) fun _ => ()
    CookbookRepo.create
      { id := (call.d.sub 0).hexId "cb_" 8
        name := "my-cookbook"
        ownerId := call.accountId
        createdAt := call.now }

def createStarter (cookbookId : String) : Sql (Bundle × List Task) :=
  let created := BundleService.createBundle cookbookId "" call.accountId [] false (call.d.sub 1)
  match call.fault with
  | none => created
  | some (n, e) => created.failAt e n

/-- The body of `async with _seed_lock_for(cookbook.id)`. -/
def seed (cookbookId : String) : Workspace Unit := do
  if ← Workspace.sql (BundleRepo.hasAnyForCookbook cookbookId) then return ()
  else
    let _ ← (Workspace.sql (call.createStarter cookbookId)).attempt
    return ()

def initWorkspace : Async WorkspaceOp WorkspaceDb Exn Cookbook := do
  let cookbook ← .ofCoro call.ensureCookbook
  if ← .ofCoro (Workspace.sql (BundleRepo.hasAnyForCookbook cookbook.id)) then return cookbook
  else
    .within cookbook.id (.ofCoro (call.seed cookbook.id))
    return cookbook

end InitCall

/-! ### Calls at the same time -/

/-- A call of the endpoint, or any other coroutine. -/
inductive WorkspaceCall where
  | initWorkspace (call : InitCall)
  | other (program : Workspace Unit)

/-- A call answers with the cookbook. -/
def WorkspaceCall.program : WorkspaceCall → Async WorkspaceOp WorkspaceDb Exn (Option Cookbook)
  | .initWorkspace call => call.initWorkspace >>= fun cookbook => .done (some cookbook)
  | .other program => .ofCoro program >>= fun _ => .done none

/-- What the one connection makes of a statement. -/
def WorkspaceOp.serve (op : WorkspaceOp) (s : WorkspaceDb) : WorkspaceDb × WorkspaceDb := (op.exec s, s)

section Calls

variable {ι : Type} (calls : ι → WorkspaceCall)

/-- The identifier of a bundle that one of the calls creates. -/
def IsStarter (id : String) : Prop := ∃ i call, calls i = .initWorkspace call ∧ id = call.starterId

/-- The other coroutines create no bundle with an identifier that a call has drawn. -/
def SparesStarters : Prop := ∀ i program, calls i = .other program →
  program.Every fun op => ∀ b, op = .sql (.insertBundle b) → ¬ IsStarter calls b.id

/-- The calls on their connection after a schedule. -/
def workspace [DecidableEq ι] (start : WorkspaceDb) (turns : List (ConnectionTurn ι)) :
    Connection ι WorkspaceDb WorkspaceOp WorkspaceDb Exn (Option Cookbook) :=
  (Connection.start start fun i => (calls i).program).run WorkspaceOp.serve turns

end Calls

/-! ### Bundles -/

theorem BundleUpdate.apply_cookbookId (u : BundleUpdate) (b : Bundle) : (u.apply b).cookbookId = b.cookbookId := by
  cases u <;> rfl

theorem Op.bundles_exec (op : Op) (db : Db) :
    (∃ f : Bundle → Bundle, (∀ b, (f b).id = b.id ∧ (f b).cookbookId = b.cookbookId) ∧
      (op.exec db).bundles.rows = db.bundles.rows.map f) ∨
    ∃ b, op = .insertBundle b ∧ db.bundles.get b.id = none ∧ (op.exec db).bundles.rows = db.bundles.rows ++ [b] := by
  have hsame : ∀ {db' : Db}, db'.bundles = db.bundles → ∃ f : Bundle → Bundle,
      (∀ b, (f b).id = b.id ∧ (f b).cookbookId = b.cookbookId) ∧ db'.bundles.rows = db.bundles.rows.map f :=
    fun h => ⟨id, fun _ => ⟨rfl, rfl⟩, by rw [h, List.map_id]⟩
  cases op
  case insertBundle b =>
    cases hget : db.bundles.get b.id with
    | none => exact .inr ⟨b, rfl, hget, Table.rows_insert hget⟩
    | some old => exact .inl (hsame (Table.insert_of_isSome (Option.isSome_iff_exists.mpr ⟨old, hget⟩)))
  case updateBundle id u expected =>
    refine .inl ⟨fun b => if key b = id then if Db.matchesVersion expected b.resourceVersion then u.apply b else b
      else b, fun b => ?_, rfl⟩
    dsimp only
    split
    · split
      · exact ⟨BundleUpdate.key_apply u b, u.apply_cookbookId b⟩
      · exact ⟨rfl, rfl⟩
    · exact ⟨rfl, rfl⟩
  case insertTask t =>
    refine .inl (hsame ?_)
    rw [exec]
    split <;> rfl
  case insertEvent e link =>
    refine .inl (hsame ?_)
    rw [exec]
    split <;> rfl
  all_goals exact .inl (hsame rfl)

/-- What a statement makes of the bundles: they keep their identifiers and cookbooks, or there is one more. -/
theorem WorkspaceOp.bundles_exec (op : WorkspaceOp) (s : WorkspaceDb) :
    (∃ f : Bundle → Bundle, (∀ b, (f b).id = b.id ∧ (f b).cookbookId = b.cookbookId) ∧
      (op.exec s).db.bundles.rows = s.db.bundles.rows.map f) ∨
    ∃ b, op = .sql (.insertBundle b) ∧ s.db.bundles.get b.id = none ∧
      (op.exec s).db.bundles.rows = s.db.bundles.rows ++ [b] := by
  cases op with
  | sql op =>
    rcases op.bundles_exec s.db with h | ⟨b, rfl, h⟩
    · exact .inl h
    · exact .inr ⟨b, rfl, h⟩
  | selectCookbooks => exact .inl ⟨id, fun _ => ⟨rfl, rfl⟩, (List.map_id _).symm⟩
  | insertCookbook cookbook => exact .inl ⟨id, fun _ => ⟨rfl, rfl⟩, (List.map_id _).symm⟩

/-- A bundle stays where it is. -/
theorem WorkspaceOp.keeps_bundle {P : String → Option String → Prop} (op : WorkspaceOp) {s : WorkspaceDb}
    (h : ∃ b ∈ s.db.bundles.rows, P b.id b.cookbookId) :
    ∃ b ∈ (op.exec s).db.bundles.rows, P b.id b.cookbookId := by
  obtain ⟨b, hb, hP⟩ := h
  rcases op.bundles_exec s with ⟨f, hf, hrows⟩ | ⟨b', -, -, hrows⟩ <;> rw [hrows]
  · refine ⟨f b, List.mem_map_of_mem hb, ?_⟩
    rwa [(hf b).1, (hf b).2]
  · exact ⟨b, List.mem_append_left _ hb, hP⟩

/-! ### The lock -/

section Slot

variable (starter : String → Prop) [DecidablePred starter] (old : Option String) (cookbookId : String)

/-- The starter bundles of a cookbook, and a bundle that it has had before. -/
def starterSlot : Slot WorkspaceDb WorkspaceOp WorkspaceDb where
  exec := WorkspaceOp.serve
  valid s := ∀ id ∈ old, ∃ b ∈ s.db.bundles.rows, b.id = id ∧ b.cookbookId = some cookbookId
  content s := s.db.bundles.rows.countP fun b =>
    decide (b.cookbookId = some cookbookId ∧ (starter b.id ∨ some b.id = old))
  fills
    | .sql (.insertBundle b) => decide (b.cookbookId = some cookbookId ∧ starter b.id)
    | _ => false
  showsEmpty op s := op = .sql .select ∧ ¬ HasBundle s.db cookbookId
  valid_exec op s h id hid := op.keeps_bundle (P := fun i c => i = id ∧ c = some cookbookId) (h id hid)
  content_exec op s h := by
    rw [WorkspaceOp.serve]
    dsimp only
    rcases op.bundles_exec s with ⟨f, hf, hrows⟩ | ⟨b, rfl, hget, hrows⟩ <;> rw [hrows]
    · rw [List.countP_map]
      refine Nat.le_trans (Nat.le_of_eq (List.countP_congr fun b _ => ?_)) (Nat.le_add_right _ _)
      simp only [Function.comp, (hf b).1, (hf b).2]
    · rw [List.countP_append, List.countP_singleton]
      refine Nat.add_le_add_left ?_ _
      by_cases hcookbook : b.cookbookId = some cookbookId
      · have hold : some b.id ≠ old := by
          rintro rfl
          obtain ⟨b', hb', hid, -⟩ := h b.id rfl
          exact Table.get_eq_none_iff.mp hget b' hb' hid
        by_cases hstarter : starter b.id <;> simp [hcookbook, hold, hstarter]
      · simp [hcookbook]
  of_showsEmpty op s h := by
    rintro ⟨rfl, hnone⟩
    refine ⟨rfl, List.countP_eq_zero.mpr fun b hb => ?_⟩
    rw [decide_eq_true_iff]
    exact fun hslot => hnone ⟨b, hb, hslot.1⟩

end Slot

section Guarded

variable {starter : String → Prop} [DecidablePred starter] {old : Option String} {cookbookId : String}

/-- The statement creates no starter bundle of the cookbook. -/
def NoStarter (starter : String → Prop) [DecidablePred starter] (old : Option String) (cookbookId : String)
    (op : WorkspaceOp) : Prop := (starterSlot starter old cookbookId).fills op = false

theorem every_ensureCookbook (call : InitCall) :
    call.ensureCookbook.Every (NoStarter starter old cookbookId) := by
  refine .bind ⟨rfl, fun _ => trivial⟩ fun found => ?_
  cases found with
  | some cookbook => trivial
  | none =>
    refine .bind ⟨rfl, fun _ => trivial⟩ fun _ => .bind ⟨rfl, fun s => ?_⟩ fun _ => ?_
    · exact .ite (fun _ => trivial) fun _ => trivial
    · exact .bind ⟨rfl, fun _ => trivial⟩ fun _ => trivial

theorem every_hasAny (other : String) :
    (Workspace.sql (BundleRepo.hasAnyForCookbook other)).Every (NoStarter starter old cookbookId) :=
  ⟨rfl, fun _ => trivial⟩

theorem Coro.Every.failAt {σ Op ε α : Type} {P : Op → Prop} {c : Coro σ Op ε α} (hc : c.Every P) (e : ε) (n : Nat) :
    (c.failAt e n).Every P := by
  induction c generalizing n with
  | done a => cases n <;> trivial
  | raise e' => cases n <;> trivial
  | await op next ih =>
    cases n with
    | zero => trivial
    | succ n => exact ⟨hc.1, fun s => ih s (hc.2 s) n⟩

theorem Coro.AfterFirst.failAt {σ Op ε α : Type} {P : Op → Prop} {c : Coro σ Op ε α} (hc : c.AfterFirst P) (e : ε)
    (n : Nat) : (c.failAt e n).AfterFirst P := by
  cases c with
  | done a => cases n <;> trivial
  | raise e' => cases n <;> trivial
  | await op next =>
    cases n with
    | zero => trivial
    | succ n => exact fun s => (hc s).failAt e n

section CreateBundle

variable {P : Op → Prop} (hplain : PlainOps P) (hevent : ∀ e, P (.insertEvent e)) (cookbookId prompt createdBy : String)
  (d : Draws)
include hplain hevent

/-- The bundle comes first. -/
theorem createBundle_afterFirst :
    (BundleService.createBundle cookbookId prompt createdBy [] false d).AfterFirst P := by
  refine .bind (.bind (fun db => ?_) fun _ => ?_) fun bundle => .bind trivial fun _ => ?_
  · exact .ite (fun _ => trivial) fun _ => trivial
  · exact .bind (Sql.every_commit hplain) fun _ => trivial
  · refine .bind (EventRepo.every_create hplain (hevent _)) fun _ => ?_
    refine .bind (EventRepo.every_create hplain (hevent _)) fun _ => ?_
    exact .bind (Sql.every_record hplain) fun _ => .bind (BundleService.every_recordTasks hplain _) fun _ => trivial

theorem every_createBundle (hbundle : ∀ b : Bundle, b.cookbookId = some cookbookId → P (.insertBundle b)) :
    (BundleService.createBundle cookbookId prompt createdBy [] false d).Every P :=
  ⟨hbundle _ rfl, createBundle_afterFirst hplain hevent cookbookId prompt createdBy d⟩

end CreateBundle

theorem createStarter_afterFirst (call : InitCall) (other : String) :
    ((Workspace.sql (call.createStarter other)).attempt).AfterFirst (NoStarter starter old cookbookId) := by
  have hstarter : (call.createStarter other).AfterFirst fun op => NoStarter starter old cookbookId (.sql op) := by
    unfold InitCall.createStarter
    have hcreated := createBundle_afterFirst (P := fun op => NoStarter starter old cookbookId (.sql op))
      ⟨rfl, rfl, rfl⟩ (fun _ => rfl) other "" call.accountId (call.d.sub 1)
    cases call.fault with
    | none => exact hcreated
    | some fault => exact hcreated.failAt _ _
  exact .attempt (hstarter.within fun _ hop => hop)

/-- In another cookbook. -/
theorem every_createStarter (call : InitCall) {other : String} (hother : other ≠ cookbookId) :
    ((Workspace.sql (call.createStarter other)).attempt).Every (NoStarter starter old cookbookId) := by
  have hstarter : (call.createStarter other).Every fun op => NoStarter starter old cookbookId (.sql op) := by
    unfold InitCall.createStarter
    have hcreated := every_createBundle (P := fun op => NoStarter starter old cookbookId (.sql op))
      ⟨rfl, rfl, rfl⟩ (fun _ => rfl) other "" call.accountId (call.d.sub 1) fun b hb =>
        decide_eq_false fun h => hother (Option.some.inj (hb.symm.trans h.1))
    cases call.fault with
    | none => exact hcreated
    | some fault => exact hcreated.failAt _ _
  exact .attempt (hstarter.within fun _ hop => hop)

theorem seed_eq (call : InitCall) (other : String) :
    call.seed other = .await (.sql .select) fun s =>
      if decide (HasBundle s.db other) = true then .done ()
      else (Workspace.sql (call.createStarter other)).attempt >>= fun _ => .done () := rfl

/-- The second look is made inside of the lock, and behind it comes one bundle at most. -/
theorem guarded_seed (starter : String → Prop) [DecidablePred starter] (old : Option String) (call : InitCall)
    (cookbook : Cookbook) :
    (Async.within cookbook.id (.ofCoro (call.seed cookbook.id)) >>= fun _ =>
      (.done (some cookbook) : Async WorkspaceOp WorkspaceDb Exn (Option Cookbook))).Guarded
        (starterSlot starter old cookbookId) cookbookId False False := by
  rw [Async.within_bind, Async.Guarded, seed_eq]
  split
  next hlock =>
    subst hlock
    have hleave : (Async.release cookbook.id (.done (some cookbook)) :
        Async WorkspaceOp WorkspaceDb Exn (Option Cookbook)).Guarded
          (starterSlot starter old cookbook.id) cookbook.id True False := by
      rw [Async.Guarded, if_pos rfl]
      exact ⟨trivial, trivial⟩
    refine ⟨fun h => (by cases h), fun s => ?_⟩
    dsimp only
    by_cases hbundle : HasBundle s.db cookbook.id
    · rw [if_pos (decide_eq_true hbundle)]
      exact hleave.mono False.elim
    · rw [if_neg (by simpa using hbundle)]
      exact Async.guarded_ofCoro_bind_first trivial ⟨trivial, .inr ⟨rfl, hbundle⟩⟩
        ((createStarter_afterFirst call cookbook.id).bind fun _ => trivial) fun _ => hleave
  next hother =>
    refine Async.guarded_ofCoro_bind id ⟨rfl, fun s => ?_⟩ fun _ => ?_
    · exact .ite (fun _ => trivial) fun _ => .bind (every_createStarter call hother) fun _ => trivial
    · rw [Async.Guarded, if_neg hother]
      trivial

theorem guarded_initWorkspace (starter : String → Prop) [DecidablePred starter] (old : Option String)
    (call : InitCall) :
    (WorkspaceCall.initWorkspace call).program.Guarded (starterSlot starter old cookbookId) cookbookId False False := by
  rw [WorkspaceCall.program, InitCall.initWorkspace, Async.bind_assoc]
  refine Async.guarded_ofCoro_bind id (every_ensureCookbook call) fun cookbook => ?_
  rw [Async.bind_assoc]
  refine Async.guarded_ofCoro_bind id (every_hasAny cookbook.id) fun found => ?_
  cases found with
  | true => trivial
  | false =>
    rw [if_neg Bool.false_ne_true, Async.bind_assoc]
    exact guarded_seed starter old call cookbook

theorem noStarter_of {op : WorkspaceOp} (h : ∀ b, op = .sql (.insertBundle b) → ¬ starter b.id) :
    NoStarter starter old cookbookId op := by
  cases op with
  | sql op =>
    cases op
    case insertBundle b => exact decide_eq_false fun hslot => h b rfl hslot.2
    all_goals rfl
  | selectCookbooks => rfl
  | insertCookbook cookbook => rfl

end Guarded

/-! ### The answer -/

section Answer

variable (call : InitCall) (cookbookId : String)

/-- The statement has found a bundle in the cookbook, or has been for one there. -/
def ShowsBundle (op : WorkspaceOp) (s : WorkspaceDb) : Prop :=
  op = .sql .select ∧ HasBundle s.db cookbookId ∨
    ∃ b, op = .sql (.insertBundle b) ∧ b.id = call.starterId ∧ b.cookbookId = some cookbookId

/-- The cookbook has a bundle, or the identifier that the call has drawn is taken. -/
def Seeded (s : WorkspaceDb) : Prop :=
  ∃ b ∈ s.db.bundles.rows, b.id = call.starterId ∨ b.cookbookId = some cookbookId

variable {call cookbookId}

theorem Seeded.serve (op : WorkspaceOp) (s : WorkspaceDb) (h : Seeded call cookbookId s) :
    Seeded call cookbookId (op.serve s).1 :=
  op.keeps_bundle (P := fun id c => id = call.starterId ∨ c = some cookbookId) h

theorem seeded_of_shows (op : WorkspaceOp) (s : WorkspaceDb) (h : ShowsBundle call cookbookId op (op.serve s).2) :
    Seeded call cookbookId (op.serve s).1 := by
  rcases h with ⟨rfl, b, hb, hcookbook⟩ | ⟨b, rfl, hid, hcookbook⟩
  · exact ⟨b, hb, .inr hcookbook⟩
  · cases hget : s.db.bundles.get b.id with
    | none =>
      refine ⟨b, ?_, .inr hcookbook⟩
      exact (Table.mem_insert hget).mpr (.inr rfl)
    | some b' =>
      refine ⟨b', ?_, .inl ((Table.key_eq_of_get hget).trans hid)⟩
      exact Table.mem_of_get (Table.get_insert_of_get hget b)

theorem ofCoro_hasAny_bind {α : Type} (other : String) (f : Bool → Async WorkspaceOp WorkspaceDb Exn α) :
    Async.ofCoro (Workspace.sql (BundleRepo.hasAnyForCookbook other)) >>= f =
      .execute (.sql .select) fun s => f (decide (HasBundle s.db other)) := rfl

/-- A call that nothing goes wrong with answers only after a look has found a bundle, or its insertion. -/
theorem shown_initWorkspace (hfault : call.fault = none) :
    (WorkspaceCall.initWorkspace call).program.Shown (ShowsBundle call cookbookId)
      (fun answer => ∃ cookbook, answer = some cookbook ∧ cookbook.id = cookbookId) False := by
  have hanswer : ∀ {known : Prop} (cookbook : Cookbook), (cookbook.id = cookbookId → known) →
      (Async.done (some cookbook) : Async WorkspaceOp WorkspaceDb Exn (Option Cookbook)).Shown
        (ShowsBundle call cookbookId) (fun answer => ∃ cookbook, answer = some cookbook ∧ cookbook.id = cookbookId)
          known := by
    rintro known cookbook hknown ⟨cookbook', hsame, hid⟩
    obtain rfl := Option.some.inj hsame
    exact hknown hid
  rw [WorkspaceCall.program, InitCall.initWorkspace, Async.bind_assoc]
  refine Async.shown_ofCoro_bind fun cookbook => ?_
  rw [Async.bind_assoc, ofCoro_hasAny_bind]
  intro s
  dsimp only
  by_cases hbundle : HasBundle s.db cookbook.id
  · rw [decide_eq_true hbundle, if_pos rfl]
    exact hanswer cookbook fun hid => .inr (.inl ⟨rfl, hid ▸ hbundle⟩)
  rw [decide_eq_false hbundle, if_neg Bool.false_ne_true, Async.bind_assoc, Async.within_bind, seed_eq]
  intro s'
  dsimp only
  by_cases hbundle' : HasBundle s'.db cookbook.id
  · rw [if_pos (decide_eq_true hbundle')]
    exact hanswer cookbook fun hid => .inr (.inl ⟨rfl, hid ▸ hbundle'⟩)
  rw [if_neg (by simpa using hbundle'), InitCall.createStarter, hfault]
  by_cases hid : cookbook.id = cookbookId
  · exact fun _ => Async.shown_of_known (.inr (.inr ⟨_, rfl, rfl, congrArg some hid⟩)) _
  · exact Async.shown_ofCoro_bind fun _ => hanswer cookbook fun hsame => absurd hsame hid

end Answer

/-! ### Whole runs -/

section Runs

variable {ι : Type} [DecidableEq ι] {calls : ι → WorkspaceCall} {start : WorkspaceDb}

omit [DecidableEq ι] in
theorem guarded_program (hspares : SparesStarters calls) [DecidablePred (IsStarter calls)] (old : Option String)
    (cookbookId : String) (i : ι) :
    (calls i).program.Guarded (starterSlot (IsStarter calls) old cookbookId) cookbookId False False := by
  cases hcall : calls i with
  | initWorkspace call => exact guarded_initWorkspace (IsStarter calls) old call
  | other program =>
    exact Async.guarded_ofCoro_bind id ((hspares i program hcall).mono fun _ hop => noStarter_of hop) fun _ => trivial

theorem eq_of_countP_le_one {α : Type} {p : α → Bool} {l : List α} {a b : α} (h : l.countP p ≤ 1) (ha : a ∈ l)
    (hb : b ∈ l) (hpa : p a = true) (hpb : p b = true) : a = b := by
  rw [List.countP_eq_length_filter] at h
  have ha' := List.mem_filter.mpr ⟨ha, hpa⟩
  have hb' := List.mem_filter.mpr ⟨hb, hpb⟩
  obtain ⟨c, hc⟩ := List.length_eq_one_iff.mp (Nat.le_antisymm h (List.length_pos_of_mem ha'))
  rw [hc, List.mem_singleton] at ha' hb'
  rw [ha', hb']

/-- One row at most has a given key. -/
theorem Table.countP_key_le_one {α : Type} [Keyed α] (t : Table α) (k : String) :
    t.rows.countP (key · == k) ≤ 1 := by
  have hcount := List.nodup_iff_count_le_one.mp t.nodup k
  rwa [List.count, List.countP_map] at hcount

/-- **However the calls come and wherever they are cancelled: a cookbook gets one starter bundle at most, and none
where it has had a bundle before; and when a call has answered, its cookbook has a bundle.** -/
theorem init_workspace_seeds_once (hspares : SparesStarters calls)
    (hfresh : ∀ b ∈ start.db.bundles.rows, ¬ IsStarter calls b.id) (turns : List (ConnectionTurn ι)) :
    let reached := workspace calls start turns
    (∀ b ∈ reached.table.db.bundles.rows, ∀ b' ∈ reached.table.db.bundles.rows,
      IsStarter calls b.id → IsStarter calls b'.id →
        ∀ cookbookId, b.cookbookId = some cookbookId → b'.cookbookId = some cookbookId → b = b') ∧
    (∀ cookbookId, HasBundle start.db cookbookId →
      ∀ b ∈ reached.table.db.bundles.rows, b.cookbookId = some cookbookId → ¬ IsStarter calls b.id) ∧
    ∀ i call cookbook, calls i = .initWorkspace call → call.fault = none →
      reached.returned i = some (some cookbook) →
        HasBundle reached.table.db cookbook.id ∨
          ∃ b ∈ reached.table.db.bundles.rows, b.id = call.starterId ∧ b.cookbookId ≠ some cookbook.id := by
  classical
  intro reached
  refine ⟨fun b hb b' hb' hstarter hstarter' cookbookId hin hin' => ?_, fun cookbookId hbundle b hb hin hstarter => ?_,
    fun i call cookbook hcall hfault hreturned => ?_⟩
  · have hstart : (starterSlot (IsStarter calls) none cookbookId).content start ≤ 1 :=
      Nat.le_trans (Nat.le_of_eq (List.countP_eq_zero.mpr fun b hb => by simpa using fun _ => hfresh b hb))
        (Nat.zero_le 1)
    have hsingle := Connection.single_run (fun _ h => by cases h) hstart (guarded_program hspares none cookbookId) turns
    refine eq_of_countP_le_one (Nat.le_trans (Nat.le_add_right _ _) hsingle.weight_le) hb hb' ?_ ?_
    · exact decide_eq_true ⟨hin, .inl hstarter⟩
    · exact decide_eq_true ⟨hin', .inl hstarter'⟩
  · obtain ⟨b₀, hb₀, hin₀⟩ := hbundle
    have hstart : (starterSlot (IsStarter calls) (some b₀.id) cookbookId).content start ≤ 1 := by
      refine Nat.le_trans (List.countP_mono_left fun b hb hslot => ?_) (start.db.bundles.countP_key_le_one b₀.id)
      rcases (of_decide_eq_true hslot).2 with hstarter | hid
      · exact absurd hstarter (hfresh b hb)
      · exact beq_iff_eq.mpr (Option.some.inj hid)
    have hvalid : (starterSlot (IsStarter calls) (some b₀.id) cookbookId).valid start := by
      intro id hid
      obtain rfl := Option.some.inj hid
      exact ⟨b₀, hb₀, rfl, hin₀⟩
    have hsingle := Connection.single_run hvalid hstart (guarded_program hspares (some b₀.id) cookbookId) turns
    obtain ⟨b₁, hb₁, hid, hin₁⟩ := hsingle.valid b₀.id rfl
    have hsame : b = b₁ :=
      eq_of_countP_le_one (Nat.le_trans (Nat.le_add_right _ _) hsingle.weight_le) hb hb₁
        (decide_eq_true ⟨hin, .inl hstarter⟩) (decide_eq_true ⟨hin₁, .inr (congrArg some hid)⟩)
    refine hfresh b₀ hb₀ ?_
    rwa [hsame, hid] at hstarter
  · obtain ⟨b, hb, hseeded⟩ : Seeded call cookbook.id reached.table := by
      refine Connection.of_returned (Q := fun answer => ∃ cookbook', answer = some cookbook' ∧
        cookbook'.id = cookbook.id) Seeded.serve seeded_of_shows ?_ turns hreturned ⟨cookbook, rfl, rfl⟩
      rw [hcall]
      exact shown_initWorkspace hfault
    by_cases hin : b.cookbookId = some cookbook.id
    · exact .inl ⟨b, hb, hin⟩
    · exact .inr ⟨b, hb, hseeded.resolve_right hin, hin⟩

end Runs

def adasCall (i : Fin 2) : InitCall where
  accountId := "acc_ada"
  now := { year := 2027, month := 11, day := 17, hour := 21, minute := 41, second := 58, microsecond := 7 }
  d := pathDraws (if i = 0 then 'a' else 'b')

def adasLoads (i : Fin 2) : WorkspaceCall := .initWorkspace (adasCall i)

def adasCookbook : Cookbook where
  id := "cb_1"
  name := "my-cookbook"
  ownerId := "acc_ada"
  createdAt := (adasCall 0).now

def adasDesk : WorkspaceDb where
  cookbooks := ⟨[adasCookbook], List.nodup_singleton _⟩

/-- Both find no bundle. The first is cancelled inside of the lock, when its bundle waits to be inserted, and the second
is let in. -/
def adasTurns : List (ConnectionTurn (Fin 2)) :=
  (List.replicate 4 [.run 1, .serve]).flatten ++ (List.replicate 7 [.run 0, .serve]).flatten ++
    [.run 0, .cancel 0, .run 1, .run 1, .serve, .serve, .run 1, .run 1]

theorem init_workspace_seeds_once_adas :
    let reached := workspace adasLoads adasDesk adasTurns
    reached.table.db.bundles.rows.map (·.id) = [(adasCall 0).starterId] ∧ HasBundle reached.table.db "cb_1" := by
  intro reached
  have hspares : SparesStarters adasLoads := fun _ _ h => by cases h
  have hfresh : ∀ b ∈ adasDesk.db.bundles.rows, ¬ IsStarter adasLoads b.id := fun _ hb => by cases hb
  have hseeds := init_workspace_seeds_once hspares hfresh adasTurns
  refine ⟨by decide +kernel, (hseeds.2.2 1 (adasCall 1) adasCookbook rfl rfl (by decide +kernel)).resolve_right ?_⟩
  decide +kernel

end Krewhub
