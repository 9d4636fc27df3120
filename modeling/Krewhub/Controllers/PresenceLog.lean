import Krewhub.Routes.Agents

/-!
# The watch log ends in the current status

A client that replays the watch log takes the status of the last entry for the one an agent has. That is so once
all calls are over where no call acts on a status that is out of date: a heartbeat that has read the status it
writes finds it still there, a pass of the controller marks no agent that it has not listed, and an entry is
recorded while the row has the status in it.

Otherwise a change can go unrecorded, because a heartbeat takes its own change of the status for none, or an old
status can be recorded last.
-/

namespace Krewhub

namespace Presence

/-! ### The status of a row, and the one in the log -/

def statusOf (agents : List Agent) (key : String × String) : Option AgentStatus := (find agents key).map (·.status)

def AgentEvent.row (event : AgentEvent) : String × String := (event.resourceId, event.object.cookbookId)

/-- The status in the last entry for a row. -/
def lastLogged (log : List AgentEvent) (key : String × String) : Option AgentStatus :=
  ((log.filter (·.row == key)).getLast?).map (·.object.status)

theorem lastLogged_concat (log : List AgentEvent) (event : AgentEvent) (key : String × String) :
    lastLogged (log ++ [event]) key = if event.row = key then some event.object.status else lastLogged log key := by
  rw [lastLogged, List.filter_append, List.filter_singleton]
  by_cases h : event.row = key
  · rw [if_pos h, beq_iff_eq.mpr h, cond_true, List.getLast?_concat]
    rfl
  · rw [if_neg h, beq_eq_false_iff_ne.mpr h, cond_false, List.append_nil]
    rfl

/-- Of an agent in one cookbook, the last entry for its row is the last with its id. -/
theorem lastLogged_eq_of_one_row {log : List AgentEvent} {key : String × String}
    (h : ∀ event ∈ log, event.resourceId = key.1 → event.object.cookbookId = key.2) :
    lastLogged log key = ((log.filter (·.resourceId == key.1)).getLast?).map (·.object.status) := by
  have hfilter : log.filter (·.row == key) = log.filter (·.resourceId == key.1) := by
    refine List.filter_congr fun event hevent => Bool.eq_iff_iff.mpr ?_
    rw [beq_iff_eq, beq_iff_eq]
    exact ⟨fun hrow => congrArg Prod.fst hrow, fun hid => Prod.ext hid (h event hevent hid)⟩
  rw [lastLogged, hfilter]

theorem key_of_find {agents : List Agent} {key : String × String} {row : Agent} (h : find agents key = some row) :
    row.key = key := by
  have hkey : (row.key == key) = true := List.find?_some (p := fun row : Agent => row.key == key) h
  exact beq_iff_eq.mp hkey

/-- Statements on a row by its key keep the keys. -/
theorem find_map {f : Agent → Agent} (hf : ∀ row, (f row).key = row.key) (agents : List Agent)
    (key : String × String) : find (agents.map f) key = (find agents key).map f := by
  rw [find, List.find?_map, find]
  congr 2
  funext row
  rw [Function.comp_apply, hf]

theorem statusOf_upsertAgent_self (presence : Agent) (agents : List Agent) :
    statusOf (upsertAgent presence agents) presence.key = some presence.status := by
  rw [statusOf, upsertAgent]
  split
  · rename_i hthere
    obtain ⟨row, hrow⟩ := Option.isSome_iff_exists.mp hthere
    rw [find_map, hrow, Option.map_some, Option.map_some, if_pos (key_of_find hrow)]
    intro row
    split
    · rename_i hkey
      exact hkey.symm
    · rfl
  · rename_i hnone
    rw [Option.not_isSome_iff_eq_none] at hnone
    rw [find, List.find?_append, show agents.find? (·.key == presence.key) = none from hnone, Option.none_or,
      List.find?_cons_of_pos]
    · rfl
    · exact beq_self_eq_true presence.key

theorem statusOf_upsertAgent_of_ne {presence : Agent} {key : String × String} (h : presence.key ≠ key)
    (agents : List Agent) : statusOf (upsertAgent presence agents) key = statusOf agents key := by
  rw [statusOf, upsertAgent, statusOf]
  split
  · rw [find_map]
    · cases hrow : find agents key with
      | none => rfl
      | some row => rw [Option.map_some, if_neg fun heq => h (heq.symm.trans (key_of_find hrow))]
    · intro row
      split
      · rename_i hkey
        exact hkey.symm
      · rfl
  · rw [find, List.find?_append, find]
    cases hrow : agents.find? (·.key == key) with
    | none =>
      rw [Option.none_or, List.find?_cons_of_neg]
      · rfl
      · exact fun heq => h (beq_iff_eq.mp heq)
    | some row => rfl

theorem statusOf_map {f : Agent → Agent} (hf : ∀ row, (f row).key = row.key ∧ (f row).status = row.status)
    (agents : List Agent) (key : String × String) : statusOf (agents.map f) key = statusOf agents key := by
  rw [statusOf, find_map fun row => (hf row).1, statusOf]
  cases find agents key with
  | none => rfl
  | some row => exact congrArg some (hf row).2

/-- The row with the key is stale. -/
def StaleAt (agents : List Agent) (cutoff : Nat) (key : String × String) : Prop :=
  ∃ row ∈ find agents key, Stale cutoff row

instance (agents : List Agent) (cutoff : Nat) (key : String × String) : Decidable (StaleAt agents cutoff key) :=
  inferInstanceAs (Decidable (∃ row ∈ find agents key, _))

theorem statusOf_markOffline (cutoff : Nat) (agents : List Agent) (key : String × String) :
    statusOf (agents.map fun row => if Stale cutoff row then markOffline row else row) key =
      if StaleAt agents cutoff key then some .offline else statusOf agents key := by
  rw [statusOf, find_map, statusOf]
  · cases hrow : find agents key with
    | none =>
      rw [if_neg]
      · rfl
      · rintro ⟨row, hmem, -⟩
        rw [hrow] at hmem
        cases hmem
    | some row =>
      have hstale : StaleAt agents cutoff key ↔ Stale cutoff row := by simp [StaleAt, hrow]
      rw [Option.map_some, Option.map_some]
      by_cases h : Stale cutoff row
      · rw [if_pos h, if_pos (hstale.mpr h)]
        rfl
      · rw [if_neg h, if_neg fun hat => h (hstale.mp hat)]
        rfl
  · intro row
    split <;> rfl

/-! ### How far a call has come with a row -/

/-- A pass or a call that is over with the row has `pass []`. -/
inductive Presenting where
  | pass (rest : List (String × String))
  | wrote (prevStatus : Option AgentStatus) (presence : Agent)
  | owes (rest : List (String × String))

namespace Presenting

variable (key : String × String)

def allowed (q : Presenting) : PresenceOp → Prop
  | .upsert presence _ => presence.key = key → q = .pass []
  | .markOfflineStale _ _ => q = .pass []
  | .append event => ∀ rest, q = .owes rest → event.row = key
  | .get k =>
    match q with
    | .pass (listed :: _) => k = listed
    | _ => True
  | _ => True

def advance (q : Presenting) (op : PresenceOp) (db : PresenceDb) : Presenting :=
  match op, q with
  | .upsert presence (some prevStatus), q => if presence.key = key then .wrote prevStatus presence else q
  | .upsert presence none, q => if presence.key = key then .owes [] else q
  | .markOfflineStale _ listed, _ => .pass listed
  | .append _, .owes rest => .pass rest
  | .get _, .wrote prevStatus presence =>
    if prevStatus ≠ some ((find db.agents key).getD presence).status then .owes [] else .pass []
  | .get _, .pass (listed :: rest) =>
    if listed = key ∧ (find db.agents key).isSome then .owes rest else .pass rest
  | _, q => q

/-- The call is going to record the row, if it has the status when it reads it. -/
def Owing (status : Option AgentStatus) : Presenting → Prop
  | .pass rest => key ∈ rest
  | .wrote prevStatus _ => status.isSome ∧ prevStatus ≠ status
  | .owes _ => True

end Presenting

/-- What the calls do about the row with the key. -/
def presenceProtocol (ι : Type) (key : String × String) : Protocol ι PresenceDb PresenceOp Unit Presenting where
  start := .pass []
  allowed _ q op := q.allowed key op
  advance q op db := q.advance key op db
  final _ q _ := q = .pass []

/-- A coroutine that follows the protocol. -/
abbrev Presents {α : Type} (key : String × String) (final : Presenting → α → Prop) (q : Presenting)
    (c : Presencing α) : Prop :=
  c.Follows (fun q op => q.allowed key op) (fun q op db => q.advance key op db) final q

section Follows

variable {α : Type} {key : String × String}

theorem presents_aside {q : Presenting} (aside : Aside) : Presents key (fun q' _ => q' = q) q aside.run.attempt := by
  rw [Aside.run]
  induction aside.statements with
  | zero =>
    rw [Aside.run.go]
    split <;> rfl
  | succ n ih => exact ⟨trivial, fun _ => ih⟩

/-- An entry for another row leaves a pass where it is; an entry that is owed is for the row. -/
theorem presents_recordResource {q : Presenting} {agentId : String} (eventType : WatchEventType) {agent : Agent}
    (h : ∀ rest, q = .owes rest → (agentId, agent.cookbookId) = key) :
    Presents key (fun q' _ => ∀ rest, (q = .owes rest → q' = .pass rest) ∧ (q = .pass rest → q' = .pass rest)) q
      (recordResource agentId eventType agent) := by
  refine ⟨h, fun db => ⟨trivial, fun db' rest => ⟨?_, ?_⟩⟩⟩
  · rintro rfl
    rfl
  · rintro rfl
    rfl

theorem presents_releaseAgents (release : String × String → Aside) (keys : List (String × String)) :
    Presents key (fun q _ => q = .pass []) (.pass keys) (releaseAgents release keys) := by
  induction keys with
  | nil => rfl
  | cons listed keys ih =>
    refine .perform_bind rfl fun db => ?_
    have hrecord : Presents key (fun q _ => q = .pass keys)
        ((Presenting.pass (listed :: keys)).advance key (.get listed) db)
        (recordReleased listed.1 (find db.agents listed)) := by
      rw [Presenting.advance]
      cases hrow : find db.agents listed with
      | none =>
        rw [if_neg]
        · rfl
        · rintro ⟨rfl, hthere⟩
          rw [hrow] at hthere
          cases hthere
      | some row =>
        have hkey : (listed.1, row.cookbookId) = listed := by
          conv_rhs => rw [← key_of_find hrow]
          rw [← key_of_find hrow]
          rfl
        split
        · rename_i hsame
          refine (presents_recordResource _ fun _ _ => hkey.trans hsame.1).mono fun q _ hq => ?_
          exact (hq keys).1 rfl
        · refine (presents_recordResource _ fun rest hrest => ?_).mono fun q _ hq => (hq keys).2 rfl
          cases hrest
    refine hrecord.bind fun q _ hq => ?_
    subst hq
    refine (presents_aside (release listed)).of_attempt.bind fun q _ hq => ?_
    subst hq
    exact ih

theorem presents_markOfflineStale (cutoff : Nat) (listed : List (String × String)) :
    Presents key (fun q _ => q = .pass listed) (.pass []) (markOfflineStale cutoff listed) :=
  ⟨rfl, fun _ => ⟨trivial, fun _ => rfl⟩⟩

theorem presents_reconcile (heartbeatTimeout now : Nat) (release : String × String → Aside) :
    Presents key (fun q _ => q = .pass []) (.pass []) (reconcile heartbeatTimeout now release) := by
  refine .perform_bind trivial fun db => .ite (fun _ => rfl) fun _ => ?_
  refine (presents_markOfflineStale _ _).bind fun q _ hq => ?_
  subst hq
  exact presents_releaseAgents release _

theorem presents_requireCookbook (cookbookId : String) :
    Presents key (fun q _ => q = .pass []) (.pass []) (requireCookbook cookbookId).attempt := by
  exact .attempt_perform_bind trivial fun db => .attempt_ite (fun _ => rfl) fun _ => rfl

theorem presents_authorize (caller : AgentCaller) (presence : Option Agent) :
    Presents key (fun q _ => q = .pass []) (.pass []) (authorizeAgentMutation caller presence).attempt := by
  rw [authorizeAgentMutation]
  split
  · rfl
  · split
    · rfl
    · split <;> rfl

/-- After an upsert the call owes an entry, unless it has compared and found the status it had read before. -/
def afterUpsert (key : String × String) (compared : Option (Option AgentStatus)) (updated : Agent) : Presenting :=
  if updated.key = key ∧ ∀ prevStatus ∈ compared, prevStatus ≠ some updated.status then .owes [] else .pass []

theorem presents_upsertPresence (presence : Agent) (compared : Option (Option AgentStatus)) :
    Presents key (fun q r => ∃ updated, r = .ok updated ∧ updated.key = presence.key ∧
        q = afterUpsert key compared updated) (.pass []) (upsertPresence presence compared).attempt := by
  have hread : ∀ db : PresenceDb, ((find db.agents presence.key).getD presence).key = presence.key := by
    intro db
    cases hrow : find db.agents presence.key with
    | none => rfl
    | some row => exact key_of_find hrow
  refine ⟨fun _ => rfl, fun _ => ⟨?_, fun _ => ⟨?_, fun db => ⟨_, rfl, hread db, ?_⟩⟩⟩⟩
  · trivial
  · rcases compared with _ | prevStatus <;> by_cases hkey : presence.key = key <;>
      simp only [Presenting.advance, hkey, if_true, if_false] <;> trivial
  · rw [afterUpsert, hread]
    rcases compared with _ | prevStatus <;> by_cases hkey : presence.key = key <;>
      simp [Presenting.advance, hkey]

theorem presents_record {q : Presenting} {agentId : String} (eventType : WatchEventType) {agent : Agent}
    (h : q = .pass [] ∨ q = .owes [] ∧ (agentId, agent.cookbookId) = key) :
    Presents key (fun q _ => q = .pass []) q (recordResource agentId eventType agent).attempt := by
  rcases h with rfl | ⟨rfl, hkey⟩
  · refine ⟨fun rest hrest => ?_, fun _ => ⟨trivial, fun _ => rfl⟩⟩
    cases hrest
  · exact ⟨fun _ _ => hkey, fun _ => ⟨trivial, fun _ => rfl⟩⟩

theorem afterUpsert_cases {compared : Option (Option AgentStatus)} {updated : Agent} {agentId : String}
    (hid : updated.agentId = agentId) :
    afterUpsert key compared updated = .pass [] ∨
      afterUpsert key compared updated = .owes [] ∧ (agentId, updated.cookbookId) = key := by
  rw [afterUpsert]
  split
  · rename_i h
    rw [← hid]
    exact .inr ⟨rfl, h.1⟩
  · exact .inl rfl

theorem presents_publishHeartbeat {agentId : String} {prevStatus : Option AgentStatus} {updated : Agent}
    (hid : updated.agentId = agentId) :
    Presents key (fun q _ => q = .pass []) (afterUpsert key (some prevStatus) updated)
      (publishHeartbeat agentId prevStatus updated).attempt := by
  rw [publishHeartbeat]
  split
  · exact presents_record _ (afterUpsert_cases hid)
  · rename_i hsame
    rw [afterUpsert, if_neg fun h => h.2 prevStatus rfl (not_not.mp hsame)]
    exact ⟨trivial, fun _ => rfl⟩

theorem presents_heartbeat (req : HeartbeatRequest) (caller : AgentCaller) (now : Nat) :
    Presents key (fun q _ => q = .pass []) (.pass []) (heartbeat req caller now).attempt := by
  refine (presents_requireCookbook _).attempt_bind (fun q _ hq => ?_) fun _ _ hq => hq
  subst hq
  refine .attempt_perform_bind trivial fun db => ?_
  refine (presents_authorize caller _).attempt_bind (fun q _ hq => ?_) fun _ _ hq => hq
  subst hq
  refine (presents_upsertPresence _ _).attempt_bind (fun q updated hq => ?_) fun q e hq => ?_
  · obtain ⟨_, hok, hkey, rfl⟩ := hq
    obtain rfl := Except.ok.inj hok
    refine (presents_publishHeartbeat (congrArg Prod.fst hkey)).attempt_bind (fun q _ hq => hq) fun _ _ hq => hq
  · obtain ⟨_, hok, -⟩ := hq
    cases hok

theorem presents_registerAgent (req : RegisterAgentRequest) (caller : AgentCaller) (now : Nat) (card : Aside) :
    Presents key (fun q _ => q = .pass []) (.pass []) (registerAgent req caller now card).attempt := by
  refine (presents_requireCookbook _).attempt_bind (fun q _ hq => ?_) fun _ _ hq => hq
  subst hq
  refine .attempt_perform_bind trivial fun db => ?_
  refine (presents_authorize caller _).attempt_bind (fun q _ hq => ?_) fun _ _ hq => hq
  subst hq
  refine (presents_upsertPresence _ _).attempt_bind (fun q updated hq => ?_) fun q e hq => ?_
  · obtain ⟨_, hok, hkey, rfl⟩ := hq
    obtain rfl := Except.ok.inj hok
    have hafter : afterUpsert key none updated = .pass [] ∨
        afterUpsert key none updated = .owes [] ∧ (req.agentId, updated.cookbookId) = key :=
      afterUpsert_cases (congrArg Prod.fst hkey)
    refine .attempt_perform_bind trivial fun _ => .attempt_perform_bind trivial fun _ => ?_
    refine (presents_record _ hafter).attempt_bind (fun q _ hq => ?_) fun _ _ hq => hq
    subst hq
    exact (presents_aside card).attempt_bind (fun q _ hq => hq) fun _ _ hq => hq
  · obtain ⟨_, hok, -⟩ := hq
    cases hok

end Follows

theorem presents_program (call : PresenceCall) (key : String × String) :
    Presents key (fun q _ => q = .pass []) (.pass []) call.program := by
  cases call with
  | register req caller now card => exact (presents_registerAgent req caller now card).bind fun q _ hq => hq
  | heartbeat req caller now => exact (presents_heartbeat req caller now).bind fun q _ hq => hq
  | sweep heartbeatTimeout now release => exact presents_reconcile heartbeatTimeout now release

/-! ### What is owed -/

section Schedules

variable {ι : Type} {key : String × String} {db : PresenceDb} {q : ι → Presenting} {i : ι} {op : PresenceOp}

/-- The statement does not act on a status of the row that is out of date. -/
def ActsOnCurrent (key : String × String) (db : PresenceDb) (_ : ι) : PresenceOp → Prop
  | .upsert presence compared =>
    presence.key = key → ∀ prevStatus ∈ compared, prevStatus = some presence.status →
      statusOf db.agents key = prevStatus
  | .markOfflineStale cutoff listed => StaleAt db.agents cutoff key → key ∈ listed
  | .append event => event.row = key → statusOf db.agents key = some event.object.status
  | _ => True

/-- The log ends in the status of the row, or some call is going to record it. -/
structure Recorded (key : String × String) (db : PresenceDb) (q : ι → Presenting) : Prop where
  logged : lastLogged db.log key = statusOf db.agents key ∨ ∃ i, (q i).Owing key (statusOf db.agents key)
  absent : statusOf db.agents key = none → lastLogged db.log key = none

variable [DecidableEq ι]

theorem not_owing_pass_nil {status : Option AgentStatus} : ¬ (Presenting.pass []).Owing key status :=
  List.not_mem_nil

/-- A statement that changes neither the status of the row nor the log, and after which its call owes what it owed. -/
theorem Recorded.of_same {db' : PresenceDb} {q' : Presenting} (h : Recorded key db q)
    (hstatus : statusOf db'.agents key = statusOf db.agents key) (hlog : lastLogged db'.log key = lastLogged db.log key)
    (howing : (q i).Owing key (statusOf db.agents key) →
      q'.Owing key (statusOf db.agents key) ∨ lastLogged db.log key = statusOf db.agents key) :
    Recorded key db' (Function.update q i q') := by
  constructor
  · rw [hstatus, hlog]
    rcases h.logged with hlast | ⟨j, hj⟩
    · exact .inl hlast
    · by_cases hji : j = i
      · subst hji
        rcases howing hj with hq' | hlast
        · exact .inr ⟨j, by rwa [Function.update_self]⟩
        · exact .inl hlast
      · exact .inr ⟨j, by rwa [Function.update_of_ne hji]⟩
  · rw [hstatus, hlog]
    exact h.absent

/-- A statement after which its call owes an entry. -/
theorem Recorded.of_owing {db' : PresenceDb} {q' : Presenting} {status : AgentStatus}
    (hstatus : statusOf db'.agents key = some status) (howing : q'.Owing key (some status)) :
    Recorded key db' (Function.update q i q') := by
  constructor
  · exact .inr ⟨i, by rwa [Function.update_self, hstatus]⟩
  · intro hnone
    rw [hstatus] at hnone
    cases hnone

theorem Recorded.upsert {presence : Agent} {compared : Option (Option AgentStatus)} (h : Recorded key db q)
    (hallowed : (q i).allowed key (.upsert presence compared))
    (hcurrent : ActsOnCurrent key db i (.upsert presence compared)) :
    Recorded key ((PresenceOp.upsert presence compared).exec db)
      (Function.update q i ((q i).advance key (.upsert presence compared) db)) := by
  by_cases hkey : presence.key = key
  · have hstatus : statusOf ((PresenceOp.upsert presence compared).exec db).agents key = some presence.status := by
      rw [← hkey]
      exact statusOf_upsertAgent_self presence db.agents
    rcases compared with _ | prevStatus
    · refine .of_owing hstatus ?_
      rw [Presenting.advance, if_pos hkey]
      trivial
    · by_cases hsame : prevStatus = some presence.status
      · have hcur := (hcurrent hkey prevStatus rfl hsame).trans hsame
        refine h.of_same (hstatus.trans hcur.symm) rfl fun howing => ?_
        rw [hallowed hkey] at howing
        exact absurd howing not_owing_pass_nil
      · refine .of_owing hstatus ?_
        rw [Presenting.advance, if_pos hkey]
        exact ⟨rfl, hsame⟩
  · refine h.of_same (statusOf_upsertAgent_of_ne hkey db.agents) rfl fun howing => .inl ?_
    rcases compared with _ | prevStatus <;> rwa [Presenting.advance, if_neg hkey]

theorem Recorded.markOfflineStale {cutoff : Nat} {listed : List (String × String)} (h : Recorded key db q)
    (hallowed : (q i).allowed key (.markOfflineStale cutoff listed))
    (hcurrent : ActsOnCurrent key db i (.markOfflineStale cutoff listed)) :
    Recorded key ((PresenceOp.markOfflineStale cutoff listed).exec db)
      (Function.update q i ((q i).advance key (.markOfflineStale cutoff listed) db)) := by
  have hstatus := statusOf_markOffline cutoff db.agents key
  by_cases hstale : StaleAt db.agents cutoff key
  · rw [if_pos hstale] at hstatus
    exact .of_owing hstatus (hcurrent hstale)
  · rw [if_neg hstale] at hstatus
    refine h.of_same hstatus rfl fun howing => ?_
    rw [show q i = .pass [] from hallowed] at howing
    exact absurd howing not_owing_pass_nil

theorem Recorded.get {k : String × String} (h : Recorded key db q) (hallowed : (q i).allowed key (.get k)) :
    Recorded key db (Function.update q i ((q i).advance key (.get k) db)) := by
  refine h.of_same rfl rfl fun howing => ?_
  cases hq : q i with
  | owes rest => exact .inl trivial
  | wrote prevStatus presence =>
    rw [hq] at howing
    obtain ⟨hsome, hne⟩ := howing
    obtain ⟨row, hrow⟩ : ∃ row, find db.agents key = some row := by
      rw [statusOf, Option.isSome_map] at hsome
      exact Option.isSome_iff_exists.mp hsome
    rw [statusOf, hrow, Option.map_some] at hne
    rw [Presenting.advance, hrow, Option.getD_some, if_pos hne]
    exact .inl trivial
  | pass rest =>
    cases rest with
    | nil =>
      rw [hq] at howing
      exact absurd howing not_owing_pass_nil
    | cons listed rest =>
      rw [hq] at howing
      rw [Presenting.advance]
      split
      · exact .inl trivial
      · rename_i hnot
        rcases List.mem_cons.mp howing with rfl | hrest
        · have hnone : find db.agents key = none := by
            rw [← Option.not_isSome_iff_eq_none]
            exact fun hthere => hnot ⟨rfl, hthere⟩
          have hstatus : statusOf db.agents key = none := by rw [statusOf, hnone, Option.map_none]
          exact .inr ((h.absent hstatus).trans hstatus.symm)
        · exact .inl hrest

theorem Recorded.append {event : AgentEvent} (h : Recorded key db q) (hallowed : (q i).allowed key (.append event))
    (hcurrent : ActsOnCurrent key db i (.append event)) :
    Recorded key ((PresenceOp.append event).exec db)
      (Function.update q i ((q i).advance key (.append event) db)) := by
  have hlog : lastLogged ((PresenceOp.append event).exec db).log key =
      if event.row = key then some event.object.status else lastLogged db.log key :=
    lastLogged_concat db.log event key
  by_cases hrow : event.row = key
  · have hstatus : statusOf ((PresenceOp.append event).exec db).agents key = some event.object.status := hcurrent hrow
    rw [if_pos hrow] at hlog
    constructor
    · exact .inl (hlog.trans hstatus.symm)
    · intro hnone
      rw [hstatus] at hnone
      cases hnone
  · rw [if_neg hrow] at hlog
    refine h.of_same rfl hlog fun howing => ?_
    cases hq : q i with
    | owes rest => exact absurd (hallowed rest hq) hrow
    | pass rest =>
      rw [hq] at howing
      exact .inl howing
    | wrote prevStatus presence =>
      rw [hq] at howing
      exact .inl howing

/-- One statement that acts on nothing out of date. -/
theorem Recorded.step (h : Recorded key db q) (hallowed : (q i).allowed key op) (hcurrent : ActsOnCurrent key db i op) :
    Recorded key (op.exec db) (Function.update q i ((q i).advance key op db)) := by
  cases op with
  | upsert presence compared => exact h.upsert hallowed hcurrent
  | markOfflineStale cutoff listed => exact h.markOfflineStale hallowed hcurrent
  | get k => exact h.get hallowed
  | append event => exact h.append hallowed hcurrent
  | setOwner k owner =>
    refine h.of_same (statusOf_map (fun row => ?_) db.agents key) rfl .inl
    split <;> exact ⟨rfl, rfl⟩
  | select | commit | elsewhere => exact h.of_same rfl rfl .inl

end Schedules

/-- The calls side by side; none has begun. -/
def presencePool {ι : Type} (calls : ι → PresenceCall) (db : PresenceDb) : Pool ι PresenceDb PresenceOp Exn Unit :=
  .init (fun i => (calls i).program) db

theorem lawfulBEq_key : LawfulBEq (String × String) := inferInstance

instance {ι : Type} (key : String × String) (db : PresenceDb) (i : ι) :
    DecidablePred (ActsOnCurrent key db i) := by
  have := lawfulBEq_key
  rintro (_ | _) <;> unfold ActsOnCurrent <;> dsimp only <;> infer_instance

/-- **Whatever calls run side by side, and in whatever order, once all of them are over the last entry for a row
carries the status of the row, where the log started so and no statement acted on a status that was out of date.** -/
theorem log_ends_in_status {ι : Type} [DecidableEq ι] {calls : ι → PresenceCall} {db : PresenceDb}
    {key : String × String} {schedule : List ι} (hstart : lastLogged db.log key = statusOf db.agents key)
    (hcurrent : Pool.Along PresenceOp.exec id (ActsOnCurrent key) (presencePool calls db) (schedule.map .run))
    (hover : ∀ i, ((presencePool calls db).run PresenceOp.exec id (schedule.map .run)).hasReturned i = true) :
    lastLogged ((presencePool calls db).run PresenceOp.exec id (schedule.map .run)).state.log key =
      statusOf ((presencePool calls db).run PresenceOp.exec id (schedule.map .run)).state.agents key := by
  have hobeys : Pool.Obeys (presenceProtocol ι key) (presencePool calls db) fun _ => .pass [] :=
    Pool.obeys_init (fun i => presents_program (calls i) key) db
  have hrecorded : Recorded key db fun _ : ι => .pass [] :=
    ⟨.inl hstart, fun hnone => hstart.trans hnone⟩
  obtain ⟨q, hend, hrec⟩ := Pool.inv_run_id (I := Recorded key)
    (G := ActsOnCurrent key) (fun _ _ _ _ h hallowed hstep => h.step hallowed hstep) hobeys hrecorded hcurrent
  rcases hrec.logged with hlast | ⟨i, howing⟩
  · exact hlast
  · obtain ⟨a, hdone⟩ := Pool.exists_returned (hover i)
    have hpass : q i = .pass [] := (hend i).2 _ hdone
    rw [hpass] at howing
    exact absurd howing not_owing_pass_nil

def coder : RegisterAgentRequest where
  agentId := "coder@alice"
  cookbookId := "cb_1"
  displayName := "coder"

def alice : AgentCaller := { accountId := "acc_alice", authMethod := "jwt", username := some "alice" }

/-- An agent with the status, not heard of for a while. -/
def quietDb (status : AgentStatus) : PresenceDb where
  cookbooks := ["cb_1"]
  agents := [{ coder.presence 0 with status := status }]
  log := [{ resourceId := "coder@alice", eventType := .added, object := { coder.presence 0 with status := status } }]

/-- A heartbeat beside a pass of the controller. -/
def heartbeatAndSweep : Bool → PresenceCall
  | false => .heartbeat { coder with } alice 100
  | true => .sweep 30 60 fun _ => {}

/-- The pass after the heartbeat. -/
theorem offline_then_online :
    lastLogged ((presencePool heartbeatAndSweep (quietDb .offline)).run PresenceOp.exec id
        ((List.replicate 7 false ++ [true]).map .run)).state.log ("coder@alice", "cb_1") =
      statusOf ((presencePool heartbeatAndSweep (quietDb .offline)).run PresenceOp.exec id
        ((List.replicate 7 false ++ [true]).map .run)).state.agents ("coder@alice", "cb_1") :=
  log_ends_in_status (by decide) (by decide) (by decide)

/-- The pass between what the heartbeat reads and what it writes: the row ends online, and the log offline. -/
theorem heartbeat_unrecorded :
    let schedule := (List.replicate 2 false ++ List.replicate 6 true ++ List.replicate 4 false).map Turn.run
    let after := (presencePool heartbeatAndSweep (quietDb .online)).run PresenceOp.exec id schedule
    lastLogged (quietDb .online).log ("coder@alice", "cb_1") =
        statusOf (quietDb .online).agents ("coder@alice", "cb_1") ∧
      (∀ i, after.hasReturned i = true) ∧
      lastLogged after.state.log ("coder@alice", "cb_1") = some .offline ∧
      statusOf after.state.agents ("coder@alice", "cb_1") = some .online := by
  decide

end Presence

end Krewhub
