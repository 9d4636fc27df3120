import Krewhub.Routes.Acyclicity

/-!
# Acyclic links

The active links of a bundle never form a cycle. Between existing tasks `create_link` searches the
links for a way back, and a downstream that is created on the spot has no links yet, because links
that are active have tasks at both ends: removing a task revokes every link that touches it.
-/

namespace Krewhub

open Relation

/-- An active link of the bundle from `x` to `y`. -/
def ActiveLink (db : Db) (bundleId x y : String) : Prop :=
  ∃ l ∈ db.links, l.bundleId = bundleId ∧ l.revokedAt = none ∧ l.fromTaskId = x ∧ l.toTaskId = y

/-- The active links of every bundle are acyclic. -/
def LinksAcyclic (db : Db) : Prop := ∀ bundleId, Acyclic (ActiveLink db bundleId)

/-- Active links have tasks at both ends. -/
def LinksLive (db : Db) : Prop :=
  ∀ l ∈ db.links, l.revokedAt = none →
    (db.tasks.get l.fromTaskId).isSome ∧ (db.tasks.get l.toTaskId).isSome

/-! ### The guard -/

theorem edge_linksOf_iff {db : Db} {bundleId x y : String} :
    (linksOf db bundleId).Edge x y ↔ ActiveLink db bundleId x y := by
  have hfold : ∀ (links : List Link) (adj : Adjacency String),
      (links.foldl (fun adj l => adj.addEdge l.fromTaskId l.toTaskId) adj).Edge x y ↔
        adj.Edge x y ∨ ∃ l ∈ links, l.fromTaskId = x ∧ l.toTaskId = y := by
    intro links
    induction links with
    | nil => simp
    | cons l links ih =>
      intro adj
      rw [List.foldl_cons, ih, Adjacency.edge_addEdge, or_assoc, List.exists_mem_cons_iff]
      simp only [eq_comm]
  have hnil : ¬ Adjacency.Edge ([] : Adjacency String) x y := List.not_mem_nil
  rw [linksOf, hfold, or_iff_right hnil, ActiveLink]
  simp only [List.mem_filter, Bool.and_eq_true, beq_iff_eq, Option.isNone_iff_eq_none, and_assoc]
  rfl

/-- The search ends, and finds its target exactly when a chain of active links leads there. -/
theorem wouldCycleLinks_iff {db : Db} {bundleId fromId toId : String} :
    wouldCycleLinks db bundleId fromId toId = true ↔
      ReflTransGen (ActiveLink db bundleId) toId fromId := by
  have hedge : (linksOf db bundleId).Edge = ActiveLink db bundleId := by
    funext x y
    exact propext edge_linksOf_iff
  rw [wouldCycleLinks, Adjacency.search_eq_true_iff, hedge]

/-! ### Statements that add no link -/

/-- No link becomes active, and no task goes. -/
structure KeepsLinks (db db' : Db) : Prop where
  links : ∀ l ∈ db'.links, l.revokedAt = none → l ∈ db.links
  tasks : ∀ taskId, (db.tasks.get taskId).isSome → (db'.tasks.get taskId).isSome

instance : IsPreorder Db KeepsLinks where
  refl _ := ⟨fun _ hl _ => hl, fun _ h => h⟩
  trans _ _ _ hab hbc := ⟨fun l hl hactive => hab.links l (hbc.links l hl hactive) hactive,
    fun taskId h => hbc.tasks taskId (hab.tasks taskId h)⟩

theorem KeepsLinks.activeLink {db db' : Db} (h : KeepsLinks db db') {bundleId x y : String}
    (hlink : ActiveLink db' bundleId x y) : ActiveLink db bundleId x y := by
  obtain ⟨l, hl, hbundle, hactive, hends⟩ := hlink
  exact ⟨l, h.links l hl hactive, hbundle, hactive, hends⟩

theorem KeepsLinks.of_links_eq {db db' : Db} (hlinks : db'.links = db.links)
    (htasks : ∀ taskId, (db.tasks.get taskId).isSome → (db'.tasks.get taskId).isSome) :
    KeepsLinks db db' := ⟨fun _ hl _ => hlinks ▸ hl, htasks⟩

/-- The invariant: active links are acyclic and have tasks at both ends. -/
structure LinksSound (db : Db) : Prop where
  acyclic : LinksAcyclic db
  live : LinksLive db

theorem LinksSound.of_keepsLinks {db db' : Db} (hsound : LinksSound db) (h : KeepsLinks db db') :
    LinksSound db' where
  acyclic bundleId := (hsound.acyclic bundleId).mono fun _ _ => h.activeLink
  live l hl hactive := by
    have hends := hsound.live l (h.links l hl hactive) hactive
    exact ⟨h.tasks _ hends.1, h.tasks _ hends.2⟩

/-- Whatever the database, the operation makes no link active and deletes no task. -/
def LinkSafe (op : Op) : Prop := ∀ db, KeepsLinks db (op.exec db)

theorem LinkSafe.update {taskId : String} {u : TaskUpdate} {expected : Option Nat}
    {seen : Option Task} : LinkSafe (.updateTask taskId u expected seen) := by
  refine fun db => .of_links_eq rfl fun id hid => ?_
  rw [Op.get_exec_updateTask]
  split
  · rwa [Option.isSome_map]
  · exact hid

theorem LinkSafe.revoke {id : String} {now : Nat} : LinkSafe (.revokeLink id now) := by
  refine fun db => ⟨fun l hl hactive => ?_, fun _ h => h⟩
  obtain ⟨l', hl', rfl⟩ := Op.mem_exec_revokeLink.mp hl
  by_cases hid : l'.id = id
  · rw [if_pos hid] at hactive
    cases hactive
  · rwa [if_neg hid]

theorem LinkSafe.insertTask {t : Task} : LinkSafe (.insertTask t) := by
  intro db
  rw [Op.exec]
  split
  · refine .of_links_eq rfl fun id hid => ?_
    obtain ⟨t', ht'⟩ := Option.isSome_iff_exists.mp hid
    show ((db.tasks.insert t).get id).isSome
    rw [Table.get_insert_of_get ht']
    rfl
  · exact refl_of KeepsLinks db

theorem LinkSafe.insertEvent {event : Event} : LinkSafe (.insertEvent event) := by
  intro db
  rw [Op.exec]
  split <;> exact .of_links_eq rfl fun _ h => h

theorem requestOps_linkSafe : RequestOps LinkSafe :=
  .of_updates ⟨fun db => refl_of KeepsLinks db, fun db => refl_of KeepsLinks db,
    fun db => refl_of KeepsLinks db⟩ (fun _ _ _ => .update) (fun _ _ => .revoke)
    (fun _ => .insertEvent) fun _ _ => .of_links_eq rfl fun _ h => h

theorem keepsLinks_of_linkSafe {α : Type} {c : Sql α} (h : c.Every LinkSafe) (db : Db) :
    Sql.Keeps KeepsLinks c db := h.keeps (fun _ hop => hop) db

theorem keepsLinks_of_run {α : Type} {c : Sql α} (hc : c.Every LinkSafe) {r : Except Exn α}
    {db db' : Db} (h : c.run Op.exec db = (r, db')) : KeepsLinks db db' := by
  have hkeeps := keepsLinks_of_linkSafe hc db
  rwa [Sql.Keeps, Coro.Keeps, h] at hkeeps

/-! ### Creating a link -/

/-- The invariant while a link between two tasks is stored: both are there, and no chain of active links
leads back. -/
structure LinkFits (bundleId fromId toId : String) (db : Db) : Prop where
  sound : LinksSound db
  from_isSome : (db.tasks.get fromId).isSome
  to_isSome : (db.tasks.get toId).isSome
  no_way_back : ¬ ReflTransGen (ActiveLink db bundleId) toId fromId

theorem LinkFits.of_keepsLinks {bundleId fromId toId : String} {db db' : Db}
    (h : LinkFits bundleId fromId toId db) (hkeeps : KeepsLinks db db') :
    LinkFits bundleId fromId toId db' where
  sound := h.sound.of_keepsLinks hkeeps
  from_isSome := hkeeps.tasks _ h.from_isSome
  to_isSome := hkeeps.tasks _ h.to_isSome
  no_way_back hback :=
    h.no_way_back (ReflTransGen.mono (fun _ _ => hkeeps.activeLink) _ _ hback)

theorem activeLink_insertLink {db : Db} {l : Link} {bundleId x y : String}
    (hfree : db.links.get (key l) = none)
    (h : ActiveLink (Op.exec (.insertLink l) db) bundleId x y) :
    ActiveLink db bundleId x y ∨ l.bundleId = bundleId ∧ x = l.fromTaskId ∧ y = l.toTaskId := by
  obtain ⟨l', hl', hbundle, hactive, rfl, rfl⟩ := h
  rcases (Table.mem_insert hfree).mp hl' with hold | rfl
  · exact .inl ⟨l', hold, hbundle, hactive, rfl, rfl⟩
  · exact .inr ⟨hbundle, rfl, rfl⟩

/-- The link that fits may be stored, and there is no way back afterwards. -/
theorem LinkFits.insertLink {l : Link} {db : Db}
    (h : LinkFits l.bundleId l.fromTaskId l.toTaskId db) :
    LinkFits l.bundleId l.fromTaskId l.toTaskId (Op.exec (.insertLink l) db) := by
  by_cases htaken : (db.links.get (key l)).isSome
  · have hsame : Op.exec (.insertLink l) db = db := by
      rw [Op.exec, Table.insert_of_isSome htaken]
    rw [hsame]
    exact h
  · rw [Option.not_isSome_iff_eq_none] at htaken
    have hacyclic : LinksAcyclic (Op.exec (.insertLink l) db) := by
      intro bundleId
      refine (h.sound.acyclic bundleId).replace (a := l.fromTaskId) (fun x y hxy => ?_)
        fun y hy => ?_
      · rcases activeLink_insertLink htaken hxy with hold | ⟨_, rfl, _⟩
        · exact .inr hold
        · exact .inl rfl
      · rcases activeLink_insertLink htaken hy with hold | ⟨rfl, _, rfl⟩
        · exact .inl hold
        · exact .inr h.no_way_back
    refine ⟨⟨hacyclic, fun l' hl' hactive => ?_⟩, h.from_isSome, h.to_isSome, fun hback => ?_⟩
    · rcases (Table.mem_insert htaken).mp hl' with hold | rfl
      · exact h.sound.live l' hold hactive
      · exact ⟨h.from_isSome, h.to_isSome⟩
    · by_cases hrevoked : l.revokedAt = none
      · have hnew : ActiveLink (Op.exec (.insertLink l) db) l.bundleId l.fromTaskId l.toTaskId :=
          ⟨l, (Table.mem_insert htaken).mpr (.inr rfl), rfl, hrevoked, rfl, rfl⟩
        exact hacyclic l.bundleId l.fromTaskId (.head' hnew hback)
      · refine h.no_way_back (ReflTransGen.mono (fun x y hxy => ?_) _ _ hback)
        obtain ⟨l', hl', hbundle, hactive, hends⟩ := hxy
        rcases (Table.mem_insert htaken).mp hl' with hold | rfl
        · exact ⟨l', hold, hbundle, hactive, hends⟩
        · exact absurd hactive hrevoked

/-- The operation keeps what is asked while a link is stored. -/
def FitSafe (bundleId fromId toId : String) (op : Op) : Prop :=
  ∀ db, LinkFits bundleId fromId toId db → LinkFits bundleId fromId toId (op.exec db)

theorem LinkSafe.fitSafe {op : Op} (h : LinkSafe op) (bundleId fromId toId : String) :
    FitSafe bundleId fromId toId op := fun db hfits => hfits.of_keepsLinks (h db)

theorem linksSound_storeLink {db : Db} {link : Link}
    (hfits : LinkFits link.bundleId link.fromTaskId link.toTaskId db) (fromTask : Task)
    (toTaskId kind : String) (req : CreateLinkRequest) (d : Draws) :
    LinksSound ((storeLink fromTask toTaskId kind req d link).run Op.exec db).2 := by
  have hsafe : ∀ op, LinkSafe op → FitSafe link.bundleId link.fromTaskId link.toTaskId op :=
    fun op hop => hop.fitSafe _ _ _
  have hplain : PlainOps (FitSafe link.bundleId link.fromTaskId link.toTaskId) :=
    ⟨fun _ h => h, fun _ h => h, fun _ h => h⟩
  have hevery : (storeLink fromTask toTaskId kind req d link).Every
      (FitSafe link.bundleId link.fromTaskId link.toTaskId) :=
    every_storeLink hplain (fun _ _ => hsafe _ .update) (fun _ h => h.insertLink)
      (hsafe _ .update)
  exact (hevery.run_inv (fun op hop db h => hop db h) hfits).sound

/-- Links that are sound stay so. -/
def KeepsSound (db db' : Db) : Prop := LinksSound db → LinksSound db'

instance : IsPreorder Db KeepsSound where
  refl _ h := h
  trans _ _ _ hab hbc h := hbc (hab h)

/-- Both guards look for a way back; from a downstream that is new there is none. -/
theorem keepsSound_insertLink {db : Db} {fromTask : Task} {toTaskId kind : String}
    {req : CreateLinkRequest} (hfrom : (db.tasks.get fromTask.id).isSome)
    (hto : (db.tasks.get toTaskId).isSome)
    (hnew : req.newTask.isSome →
      ¬ ReflTransGen (ActiveLink db fromTask.bundleId) toTaskId fromTask.id)
    (caller : CallerContext) (d : Draws) :
    Sql.Keeps KeepsSound (insertLink fromTask toTaskId kind req caller d) db := by
  apply keeps_insertLink
  intro hpassed link hbundle hlinkFrom hlinkTo hsound
  have hback : ¬ ReflTransGen (ActiveLink db fromTask.bundleId) toTaskId fromTask.id := by
    cases hinput : req.newTask with
    | some input => exact hnew (by rw [hinput]; rfl)
    | none =>
      intro hreach
      have hcycle := (hpassed hinput).2
      rw [wouldCycleLinks_iff.mpr hreach] at hcycle
      cases hcycle
  have hfits : LinkFits link.bundleId link.fromTaskId link.toTaskId db := by
    rw [hbundle, hlinkFrom, hlinkTo]
    exact ⟨hsound, hfrom, hto, hback⟩
  exact linksSound_storeLink hfits _ _ _ _ _

/-- No active link leaves an id that is not taken. -/
theorem LinksSound.no_way_from {db : Db} (hsound : LinksSound db) {bundleId x y : String}
    (hx : db.tasks.get x = none) (hy : (db.tasks.get y).isSome) :
    ¬ ReflTransGen (ActiveLink db bundleId) x y := by
  intro hreach
  rcases ReflTransGen.cases_head hreach with rfl | ⟨z, ⟨l, hl, _, hactive, rfl, _⟩, _⟩
  · rw [hx] at hy
    cases hy
  · have hend := (hsound.live l hl hactive).1
    rw [hx] at hend
    cases hend

theorem linksSound_createLink {db : Db} (hsound : LinksSound db) (fromTaskId : String)
    (req : CreateLinkRequest) (caller : CallerContext) (d : Draws) :
    LinksSound ((createLink fromTaskId req caller d).run Op.exec db).2 := by
  have hkeeps : Sql.Keeps KeepsSound (createLink fromTaskId req caller d) db := by
    refine keeps_createLink fun fromTask hfrom _ => ?_
    have hid : fromTask.id = fromTaskId := Table.key_eq_of_get hfrom
    have hsafe : Sql.Keeps KeepsLinks (linkTarget fromTask req (d.sub 0)) db :=
      keepsLinks_of_linkSafe (every_linkTarget requestOps_linkSafe.toPlainOps
        (fun _ _ _ => .insertTask) fun _ _ => .update) db
    refine Coro.Keeps.bind (hsafe.mono fun _ _ h hsound => hsound.of_keepsLinks h) ?_
    intro toTaskId db' hrun
    rw [Sql.Keeps, Coro.Keeps, hrun] at hsafe
    obtain ⟨⟨toTask, hto, _⟩, hnew⟩ := get_of_linkTarget hrun
    have hfromSome : (db.tasks.get fromTask.id).isSome := by
      rw [hid, hfrom]
      rfl
    refine keepsSound_insertLink (hsafe.tasks _ hfromSome) (by rw [hto]; rfl) ?_ _ _
    intro hsome hreach
    have hbefore : ReflTransGen (ActiveLink db fromTask.bundleId) toTaskId fromTask.id :=
      ReflTransGen.mono (fun _ _ => hsafe.activeLink) _ _ hreach
    exact hsound.no_way_from (hnew hsome).2 hfromSome hbefore
  exact hkeeps hsound

/-! ### Removing a task -/

/-- A loop of the cascade that ends has revoked the links it went over. -/
theorem revoked_of_cascadeLinks {recurse : Cascade}
    (hrecurse : ∀ t seen d, (recurse t seen d).Every LinkSafe) {taskId : String} {now : Nat}
    {d : Draws} {links : List Link} {seen : List String} {out : CascadeSummary × List String}
    {db db' : Db}
    (h : (cascadeLinks recurse taskId now d links seen).run Op.exec db = (.ok out, db'))
    {l : Link} (hl : l ∈ links) {l' : Link} (hl' : l' ∈ db'.links) (hactive : l'.revokedAt = none) :
    l'.id ≠ l.id := by
  have hcascade := requestOps_linkSafe.toCascadeOps
  induction links generalizing seen out db with
  | nil => cases hl
  | cons link links ih =>
    rw [cascadeLinks, Coro.run_bind] at h
    split at h
    · rename_i head db₁ hhead
      rw [Coro.run_bind] at h
      split at h
      · rename_i rest _ hrest
        cases h
        rcases List.mem_cons.mp hl with rfl | hl
        · have hfirst : KeepsLinks (Op.exec (.revokeLink l.id now) db) db₁ := by
            have hbody := (every_cascadeLink hcascade hrecurse taskId now l seen
              (d.sub links.length)).2 db
            exact keepsLinks_of_run hbody hhead
          have hlater : KeepsLinks db₁ db' :=
            keepsLinks_of_run (every_cascadeLinks hcascade hrecurse taskId now d links head.2) hrest
          have hthere := hfirst.links l' (hlater.links l' hl' hactive) hactive
          obtain ⟨l₀, _, rfl⟩ := Op.mem_exec_revokeLink.mp hthere
          by_cases hid : l₀.id = l.id
          · rw [if_pos hid] at hactive
            cases hactive
          · rwa [if_neg hid]
        · exact ih hrest hl
      · cases h
    · cases h

/-- A cascade that ends leaves no active link of its task. -/
theorem no_active_link_of_cascade {depth : Nat} {taskId : String} {d : Draws}
    {out : CascadeSummary × List String} {db db' : Db}
    (h : (cascadeOnTaskTermination depth taskId [] d).run Op.exec db = (.ok out, db'))
    {l : Link} (hl : l ∈ db'.links) (hactive : l.revokedAt = none) :
    l.fromTaskId ≠ taskId ∧ l.toTaskId ≠ taskId := by
  have hcascade := requestOps_linkSafe.toCascadeOps
  have hkeeps := keepsLinks_of_run (every_cascade hcascade depth taskId [] d) h
  cases depth with
  | zero => cases h
  | succ depth =>
    rw [cascadeOnTaskTermination] at h
    dsimp only at h
    rw [if_neg List.not_mem_nil, Coro.run_bind_ok Op.exec (Sql.run_select _ db), Coro.run_bind] at h
    split at h
    · rename_i out' db₁ hloop
      cases h
      rw [← not_or]
      intro htouches
      have hmem : l ∈ activeLinksOf db taskId := by
        rw [activeLinksOf, List.mem_filter]
        simp [htouches, hactive, show l ∈ db.links.rows from hkeeps.links l hl hactive]
      exact revoked_of_cascadeLinks (every_cascade hcascade depth) hloop hmem hl hactive rfl
    · cases h

theorem linksSound_removeTask {depth : Nat} {taskId : String} {caller : CallerContext} {d : Draws}
    {r : Except Exn CascadeSummary} {db db' : Db} (hsound : LinksSound db)
    (h : (removeTask depth taskId caller d).run Op.exec db = (r, db'))
    (hcompletes : r ≠ .error .recursionError) : LinksSound db' := by
  obtain ⟨found, hfound⟩ := exists_run_of_plain (every_taskOr404 plainOps_isPlain taskId) db
  rw [removeTask, Coro.run_bind, hfound] at h
  cases found with
  | error e =>
    cases h
    exact hsound
  | ok task =>
    dsimp only at h
    obtain ⟨allowed, hallowed⟩ :=
      exists_run_of_plain (every_authorizeTaskMutation plainOps_isPlain caller task) db
    rw [Coro.run_bind, hallowed] at h
    cases allowed with
    | error e =>
      cases h
      exact hsound
    | ok _ =>
      dsimp only at h
      rcases TaskService.run_removeTask taskId db with hremove | hremove
      · rw [Coro.run_bind_ok Op.exec hremove] at h
        cases h
        exact hsound
      · rw [Coro.run_bind_ok Op.exec hremove] at h
        simp only [Bool.not_true, Bool.false_eq_true, if_false] at h
        rw [Coro.run_bind] at h
        split at h
        · rename_i out db₁ hcascade
          cases h
          have hkeeps := keepsLinks_of_run
            (every_cascade requestOps_linkSafe.toCascadeOps depth taskId [] (d.sub 0)) hcascade
          refine ⟨fun bundleId => ?_, fun l hl hactive => ?_⟩
          · exact (hsound.acyclic bundleId).mono fun _ _ hlink => hkeeps.activeLink hlink
          · obtain ⟨hfrom, hto⟩ := no_active_link_of_cascade hcascade hl hactive
            obtain ⟨hfromSome, htoSome⟩ := hsound.live l (hkeeps.links l hl hactive) hactive
            have hstill : ∀ id, id ≠ taskId → (db.tasks.get id).isSome →
                (db'.tasks.get id).isSome := by
              intro id hid hsome
              refine hkeeps.tasks id ?_
              show ((db.tasks.erase taskId).get id).isSome
              rwa [Table.get_erase_of_ne hid]
            exact ⟨hstill _ hfrom hfromSome, hstill _ hto htoSome⟩
        · rename_i e db₁ hcascade
          cases h
          have herror : e = .recursionError :=
            (throws_cascade depth taskId [] (d.sub 0)).of_run hcascade
          exact absurd (congrArg Except.error herror) hcompletes

/-! ### Runs -/

/-- One of the four requests that touch links. -/
def BoardCall.IsLinkCall (call : BoardCall) : Prop :=
  match call.request with
  | .link .. | .revoke _ | .cancel _ | .remove _ => True
  | _ => False

/-- The answer of a request. -/
def BoardCall.answer (depth : Nat) (call : BoardCall) (db : Db) : Except Exn Unit :=
  ((call.request.handle depth call.caller call.draws).run Op.exec db).1

/-- The request runs to its end, which may be an error answer, and is not torn off half-way by the
interpreter's recursion limit. -/
def BoardCall.Completes (depth : Nat) (db : Db) (call : BoardCall) : Prop :=
  call.answer depth db ≠ .error .recursionError

theorem linksSound_apply {depth : Nat} {db : Db} {call : BoardCall} (hsound : LinksSound db)
    (hcall : call.IsLinkCall) (hcompletes : call.Completes depth db) :
    LinksSound (call.apply depth db) := by
  obtain ⟨caller, request, d⟩ := call
  cases request <;> try exact hcall.elim
  case link fromTaskId req =>
    rw [BoardCall.apply, BoardRequest.handle, run_discard]
    exact linksSound_createLink hsound fromTaskId req caller d
  case revoke linkId =>
    rw [BoardCall.apply, BoardRequest.handle, run_discard]
    have hevery : (revokeLink linkId caller d).Every LinkSafe :=
      every_revokeLink requestOps_linkSafe.toPlainOps (fun _ => .revoke) fun _ _ _ => .update
    exact hsound.of_keepsLinks (keepsLinks_of_linkSafe hevery db)
  case cancel taskId =>
    rw [BoardCall.apply, BoardRequest.handle, run_discard]
    have hevery := every_cancelTask requestOps_linkSafe.toWorkOps depth taskId caller d
    exact hsound.of_keepsLinks (keepsLinks_of_linkSafe hevery db)
  case remove taskId =>
    rw [BoardCall.apply, BoardRequest.handle, run_discard]
    rcases hrun : (removeTask depth taskId caller d).run Op.exec db with ⟨r, db'⟩
    refine linksSound_removeTask hsound hrun fun herror => hcompletes ?_
    rw [BoardCall.answer, BoardRequest.handle]
    exact run_discard_of_error (hrun.trans (by rw [herror]))

theorem linksSound_of_no_links {db : Db} (h : db.links.rows = []) : LinksSound db := by
  have hnone : ∀ l, l ∉ db.links := by
    intro l hl
    rw [Table.mem_def, h] at hl
    cases hl
  refine ⟨fun bundleId => acyclic_of_rank (fun _ => 0) ?_, fun l hl => absurd hl (hnone l)⟩
  rintro x y ⟨l, hl, _⟩
  exact absurd hl (hnone l)

/-- From an empty link table, any run of link requests, cancellations and removals leaves the active
links of every bundle without a cycle; and on any table the guard finds exactly the ways back. -/
theorem linksAcyclic_and_guard_exact (depth : Nat) (db : Db) (calls : List BoardCall)
    (hempty : db.links.rows = [])
    (hcalls : Serial.Each (BoardCall.apply depth)
      (fun db call => call.IsLinkCall ∧ call.Completes depth db) db calls) :
    LinksAcyclic (Serial.after (BoardCall.apply depth) db calls) ∧
      ∀ (db' : Db) (bundleId fromId toId : String),
        wouldCycleLinks db' bundleId fromId toId = true ↔
          ReflTransGen (ActiveLink db' bundleId) toId fromId := by
  have hsound : LinksSound (Serial.after (BoardCall.apply depth) db calls) :=
    hcalls.after_inv (fun _ _ hcall h => linksSound_apply h hcall.1 hcall.2)
      (linksSound_of_no_links hempty)
  exact ⟨hsound.acyclic, fun _ _ _ _ => wouldCycleLinks_iff⟩

/-- `create_link` with a task that is created on the spot. -/
def linkNewTask : BoardCall where
  caller := { accountId := "acc_1" }
  request := .link "task_a" { newTask := some { title := "C" }, kind := "drives" }
  draws := pathDraws 'z'

/-- `remove_task` of its upstream. -/
def removeUpstream : BoardCall where
  caller := { accountId := "acc_1" }
  request := .remove "task_a"
  draws := pathDraws 'w'

/-- The two tasks of a bundle without links, a link from one to a third, and its removal. -/
theorem linksAcyclic_and_guard_exact_removed :
    LinksAcyclic (Serial.after (BoardCall.apply 1000)
      (Serial.after (BoardCall.apply 1000) {} [twoTasks]) [linkNewTask, removeUpstream]) :=
  (linksAcyclic_and_guard_exact 1000 _ [linkNewTask, removeUpstream] (by decide +kernel)
    ⟨⟨trivial, by unfold BoardCall.Completes; decide +kernel⟩,
      ⟨trivial, by unfold BoardCall.Completes; decide +kernel⟩, trivial⟩).1

end Krewhub
