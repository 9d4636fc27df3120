import Krewhub.A2A.HubClients
import Krewhub.Graph.Cycle
import Krewhub.Python.Text
import Mathlib.Data.Finset.Basic

/-!
# The planner's reservations

`PlannerDispatchController` sends every empty bundle to a planner and remembers in `_dispatched` which it has
sent, until it finds the bundle no longer empty. A reservation is given back when the request does not reach
the hub or comes back with a status other than 200; the hub reports its refusals with status 200, which the
controller takes for acceptances. Where it refuses nothing that way the reservations are those of requests
that were accepted or timed out on the way.
-/

namespace Krewhub

/-! ### What the controller reads -/

/-- The database with the two columns of `bundles` that only the planner looks at. -/
structure PlannerDb extends Db where
  autoplanEnabled : String → Bool := fun _ => false
  repoSpec : String → List (String × String) := fun _ => []

namespace PlannerDb

/-- The `WHERE` of `_find_empty_bundles`. -/
def isEmpty (db : PlannerDb) (bundle : Bundle) : Bool :=
  bundle.status == .open_ && bundle.graphCode.isNone && db.autoplanEnabled bundle.id &&
    !db.tasks.rows.any fun t => t.bundleId == bundle.id

/-- The bundle of this id is empty. -/
def Empty (db : PlannerDb) (bundleId : String) : Prop :=
  (db.bundles.get bundleId).any db.isEmpty = true

instance (db : PlannerDb) (bundleId : String) : Decidable (db.Empty bundleId) :=
  inferInstanceAs (Decidable (_ = true))

end PlannerDb

/-- What `self._http.post` ends with. -/
inductive HubAnswer where
  | connectError
  | connectTimeout
  | readTimeout
  | writeTimeout
  | poolTimeout
  | requestError
  | response (resp : HubResponse)

/-- One pass: the database as it is selected from, as each bundle is read again, as its agents are listed and
as the pass ends, and the answer to each request. -/
structure PlannerPass where
  selected : PlannerDb
  reread : String → PlannerDb
  pool : String → PlannerDb
  finished : PlannerDb
  answer : String → HubAnswer

/-! ### The controller -/

namespace PlannerDispatchController

/-- `PLANNER_CAPABILITY`. -/
def plannerCapability : String := "generate-graph"

/-- The request of `_dispatch`, without the drawn message id. -/
structure PlanRequest where
  url : String
  id : String
  text : String
  bundleId : String
  cookbookId : String
  repoUrl : Option String := none
  branch : Option String := none
  deriving DecidableEq

/-- `spec.get(key, "")`. -/
def specGet (spec : List (String × String)) (key : String) : String := (spec.lookup key).getD ""

def planRequest (bundle : Bundle) (spec : List (String × String)) (planner : AgentPresence) :
    PlanRequest where
  url :=
    let parts := planner.agentId.splitOn "@"
    let owner := orElseText planner.ownerUsername (parts.getLastD "")
    let agentShort := parts.headD ""
    s!"http://127.0.0.1:8420/a2a/{owner}/{agentShort}"
  id := s!"plan:{bundle.id}"
  text := bundle.prompt
  bundleId := bundle.id
  cookbookId := bundle.cookbookId.getD ""
  repoUrl :=
    let owner := specGet spec "owner"
    let repo := specGet spec "repo"
    let provider := (spec.lookup "provider").getD "github"
    if owner ≠ "" ∧ repo ≠ "" then some s!"git@{provider}.com:{owner}/{repo}.git" else none
  branch :=
    if spec.isEmpty then none
    else some (orElseText (spec.lookup "ref") (orElseText (spec.lookup "branch") "main"))

/-- A request that was sent, and the answer. -/
structure Dispatch where
  request : PlanRequest
  planner : String
  answer : HubAnswer

/-- `_dispatch`: whether it counts as accepted, and the reservations it leaves. -/
def dispatch (bundleId : String) (answer : HubAnswer) (dispatched : Finset String) :
    Bool × Finset String :=
  match answer with
  | .connectError | .connectTimeout => (false, dispatched.erase bundleId)
  | .readTimeout | .writeTimeout | .poolTimeout => (false, dispatched)
  | .requestError => (false, dispatched.erase bundleId)
  | .response resp =>
    if resp.statusCode ≠ 200 then (false, dispatched.erase bundleId) else (true, dispatched)

/-- `_find_empty_bundles`. -/
def findEmptyBundles (pass : PlannerPass) : List Bundle :=
  ((pass.selected.bundles.rows.filter pass.selected.isEmpty).mergeSort fun a b =>
    decide (a.createdAt ≤ b.createdAt)).filterMap fun row => (pass.reread row.id).bundles.get row.id

/-- The planner for a bundle: the pick, if it has the capability. -/
def plannerFor (pass : PlannerPass) (bundle : Bundle) : Option AgentPresence :=
  bundle.cookbookId.bind fun cookbookId =>
    (pickAgentForKind Text.lower ((pass.pool bundle.id).agents.filter (·.cookbookId == cookbookId))
      plannerCapability []).filter fun planner =>
        (planner.capabilities.map Text.lower).contains plannerCapability

/-- The loop over the empty bundles: the reservations it leaves, and what it has sent. -/
def dispatchEmpty (pass : PlannerPass) : List Bundle → Finset String → Finset String × List Dispatch
  | [], dispatched => (dispatched, [])
  | bundle :: bundles, dispatched =>
    if bundle.id ∈ dispatched then dispatchEmpty pass bundles dispatched
    else match plannerFor pass bundle with
      | none => dispatchEmpty pass bundles dispatched
      | some planner =>
        let answer := pass.answer bundle.id
        let sent := dispatch bundle.id answer (insert bundle.id dispatched)
        let rest := dispatchEmpty pass bundles sent.2
        (rest.1, ⟨planRequest bundle ((pass.reread bundle.id).repoSpec bundle.id) planner,
          planner.agentId, answer⟩ :: rest.2)

def reconcile (pass : PlannerPass) (dispatched : Finset String) : Finset String × List Dispatch :=
  let emptyBundles := findEmptyBundles pass
  if emptyBundles.isEmpty then (∅, [])
  else dispatchEmpty pass emptyBundles
    (dispatched.filter fun bundleId => bundleId ∈ emptyBundles.map (·.id))

end PlannerDispatchController

/-! ### The answers of the hub -/

/-- `_jsonrpc_result`. -/
def jsonrpcResult (reqId result : Json) : HubResponse :=
  ⟨200, some (.dict [("jsonrpc", .str "2.0"), ("id", reqId), ("result", result)])⟩

/-- `_jsonrpc_error`. -/
def jsonrpcError (reqId : Json) (code : Int) (message : String) : HubResponse :=
  ⟨200, some (.dict [("jsonrpc", .str "2.0"), ("id", reqId),
    ("error", .dict [("code", .int code), ("message", .str message)])])⟩

/-- The answer carries a result. -/
def HubResponse.accepted (resp : HubResponse) : Bool :=
  resp.statusCode == 200 && (resp.body.bind Json.entries?).any fun entries =>
    (entries.lookup "result").isSome && (entries.lookup "error").isNone

namespace HubAnswer

def accepted : HubAnswer → Bool
  | response resp => resp.accepted
  | _ => false

/-- The request may be under way at the hub: the exceptions after which the reservation is kept. -/
def timedOut : HubAnswer → Bool
  | readTimeout | writeTimeout | poolTimeout => true
  | _ => false

def refused : HubAnswer → Bool
  | response resp => !resp.accepted
  | _ => false

/-- A refusal with status 200. -/
def hidesRefusal : HubAnswer → Bool
  | response resp => resp.statusCode == 200 && !resp.accepted
  | _ => false

/-- The reservation stays. -/
def kept : HubAnswer → Bool
  | readTimeout | writeTimeout | poolTimeout => true
  | response resp => resp.statusCode == 200
  | _ => false

theorem kept_eq (answer : HubAnswer) :
    answer.kept = (answer.accepted || answer.timedOut || answer.hidesRefusal) := by
  cases answer with
  | response resp =>
    simp only [kept, accepted, timedOut, hidesRefusal, HubResponse.accepted]
    cases resp.statusCode == 200 <;> simp
  | _ => rfl

theorem not_kept_of_refused {answer : HubAnswer} (hrefused : answer.refused = true)
    (hplain : answer.hidesRefusal = false) : answer.kept = false := by
  cases answer with
  | response resp =>
    simp only [refused, hidesRefusal, kept] at *
    simpa [hrefused] using hplain
  | _ => cases hrefused

end HubAnswer

/-! ### Runs -/

/-- The reservations after some passes, and what they have sent. -/
structure PlannerRun where
  dispatched : Finset String := ∅
  sent : List PlannerDispatchController.Dispatch := []

namespace PlannerRun

open PlannerDispatchController

def pass (run : PlannerRun) (p : PlannerPass) : PlannerRun :=
  ⟨(reconcile p run.dispatched).1, run.sent ++ (reconcile p run.dispatched).2⟩

/-- The passes from the start of the process on. -/
def ofPasses (passes : List PlannerPass) : PlannerRun := passes.foldl pass {}

@[simp]
theorem ofPasses_concat (passes : List PlannerPass) (p : PlannerPass) :
    ofPasses (passes ++ [p]) = (ofPasses passes).pass p := List.foldl_concat ..

end PlannerRun

/-- The pass offers the bundle to a planner. -/
def Offers (sent : List PlannerDispatchController.Dispatch) (bundleId : String) : Prop :=
  ∃ s ∈ sent, s.request.bundleId = bundleId

/-- The pass finds the bundle empty, and in its cookbook a gateway with the capability. -/
def PlannerPass.FindsPlanner (pass : PlannerPass) (bundleId : String) : Prop :=
  ∃ bundle ∈ PlannerDispatchController.findEmptyBundles pass, bundle.id = bundleId ∧
    ∃ agent ∈ (pass.pool bundleId).agents, some agent.cookbookId = bundle.cookbookId ∧
      TaskDispatchController.isGateway agent = true ∧
      PlannerDispatchController.plannerCapability ∈ agent.capabilities.map Text.lower

/-- After each of the passes a reserved bundle that is still empty has been accepted, or its request has timed
out; a bundle that was refused is offered again by the next pass that finds a planner for it. -/
structure ReservationsMatch (passes : List PlannerPass) : Prop where
  reserved : ∀ earlier last later, passes = earlier ++ last :: later →
    ∀ bundleId ∈ (PlannerRun.ofPasses (earlier ++ [last])).dispatched, last.finished.Empty bundleId →
      ∃ s ∈ (PlannerRun.ofPasses (earlier ++ [last])).sent, s.request.bundleId = bundleId ∧
        (s.answer.accepted = true ∨ s.answer.timedOut = true)
  offered : ∀ earlier pass between next later, passes = earlier ++ pass :: between ++ next :: later →
    ∀ s ∈ (PlannerDispatchController.reconcile pass (PlannerRun.ofPasses earlier).dispatched).2,
      s.answer.refused = true → (∀ p ∈ between, ¬ p.FindsPlanner s.request.bundleId) →
      next.FindsPlanner s.request.bundleId →
      Offers (PlannerDispatchController.reconcile next
        (PlannerRun.ofPasses (earlier ++ pass :: between)).dispatched).2 s.request.bundleId

/-- The hub refuses nothing it is sent with status 200. -/
def RefusesOpenly (passes : List PlannerPass) : Prop :=
  ∀ earlier pass later, passes = earlier ++ pass :: later → ∀ bundleId, pass.FindsPlanner bundleId →
    bundleId ∉ (PlannerRun.ofPasses earlier).dispatched → (pass.answer bundleId).hidesRefusal = false

/-! ### What a pass does -/

namespace PlannerDispatchController

variable {pass : PlannerPass} {bundles : List Bundle} {dispatched : Finset String} {bundleId : String}

theorem mem_dispatch {answer : HubAnswer} (hnew : bundleId ∉ dispatched) {other : String} :
    other ∈ (dispatch bundleId answer (insert bundleId dispatched)).2 ↔
      other ∈ dispatched ∨ other = bundleId ∧ answer.kept = true := by
  have herase : (insert bundleId dispatched).erase bundleId = dispatched := Finset.erase_insert hnew
  have hinsert : other ∈ insert bundleId dispatched ↔ other ∈ dispatched ∨ other = bundleId := by
    rw [Finset.mem_insert, or_comm]
  cases answer with
  | response resp =>
    by_cases hcode : resp.statusCode = 200
    · simp [dispatch, HubAnswer.kept, hcode, hinsert]
    · simp [dispatch, HubAnswer.kept, hcode, herase]
  | readTimeout | writeTimeout | poolTimeout => simp [dispatch, HubAnswer.kept, hinsert]
  | connectError | connectTimeout | requestError => simp [dispatch, HubAnswer.kept, herase]

/-- The bundles that are reserved after the loop: those that were, and those whose request is kept. -/
theorem mem_dispatchEmpty :
    bundleId ∈ (dispatchEmpty pass bundles dispatched).1 ↔ bundleId ∈ dispatched ∨
      ∃ s ∈ (dispatchEmpty pass bundles dispatched).2, s.request.bundleId = bundleId ∧
        s.answer.kept = true := by
  induction bundles generalizing dispatched with
  | nil => simp [dispatchEmpty]
  | cons bundle bundles ih =>
    by_cases hmem : bundle.id ∈ dispatched
    · simp only [dispatchEmpty, if_pos hmem]
      exact ih
    · simp only [dispatchEmpty, if_neg hmem]
      cases plannerFor pass bundle with
      | none => exact ih
      | some planner =>
        refine (ih.trans (or_congr_left (mem_dispatch hmem))).trans (or_assoc.trans (or_congr_right ?_))
        rw [List.exists_mem_cons_iff]
        exact or_congr_left (and_congr_left' eq_comm)

/-- What the loop sends is for a bundle that was not reserved and has a planner, and is answered as the hub
answers it. -/
theorem of_mem_sent {s : Dispatch} (hs : s ∈ (dispatchEmpty pass bundles dispatched).2) :
    s.answer = pass.answer s.request.bundleId ∧ s.request.bundleId ∉ dispatched ∧
      ∃ bundle ∈ bundles, bundle.id = s.request.bundleId ∧ (plannerFor pass bundle).isSome = true := by
  induction bundles generalizing dispatched with
  | nil => cases hs
  | cons bundle bundles ih =>
    have hrest : ∀ {dispatched' : Finset String}, dispatched ⊆ dispatched' →
        s ∈ (dispatchEmpty pass bundles dispatched').2 → s.answer = pass.answer s.request.bundleId ∧
          s.request.bundleId ∉ dispatched ∧ ∃ bundle' ∈ bundle :: bundles,
            bundle'.id = s.request.bundleId ∧ (plannerFor pass bundle').isSome = true := by
      intro dispatched' hsub hs
      obtain ⟨hanswer, hnot, bundle', hbundle', hplanner⟩ := ih hs
      exact ⟨hanswer, fun hin => hnot (hsub hin), bundle', List.mem_cons_of_mem _ hbundle', hplanner⟩
    by_cases hmem : bundle.id ∈ dispatched
    · simp only [dispatchEmpty, if_pos hmem] at hs
      exact hrest subset_rfl hs
    · simp only [dispatchEmpty, if_neg hmem] at hs
      cases hplanner : plannerFor pass bundle with
      | none =>
        rw [hplanner] at hs
        exact hrest subset_rfl hs
      | some planner =>
        rw [hplanner] at hs
        rcases List.mem_cons.mp hs with rfl | hs
        · exact ⟨rfl, hmem, bundle, List.mem_cons_self, rfl, by rw [hplanner]; rfl⟩
        · exact hrest (fun other hother => (mem_dispatch hmem).mpr (.inl hother)) hs

/-- A bundle that has a planner and is not reserved is sent. -/
theorem offers_of_plannerFor {bundle : Bundle} (hbundle : bundle ∈ bundles)
    (hplanner : (plannerFor pass bundle).isSome = true) (hnew : bundle.id ∉ dispatched) :
    Offers (dispatchEmpty pass bundles dispatched).2 bundle.id := by
  induction bundles generalizing dispatched with
  | nil => cases hbundle
  | cons first bundles ih =>
    rcases List.mem_cons.mp hbundle with rfl | hbundle
    · obtain ⟨planner, hplanner⟩ := Option.isSome_iff_exists.mp hplanner
      simp only [dispatchEmpty, if_neg hnew, hplanner]
      exact ⟨_, List.mem_cons_self, rfl⟩
    · by_cases hmem : first.id ∈ dispatched
      · simp only [dispatchEmpty, if_pos hmem]
        exact ih hbundle hnew
      · simp only [dispatchEmpty, if_neg hmem]
        cases plannerFor pass first with
        | none => exact ih hbundle hnew
        | some planner =>
          by_cases hsame : bundle.id = first.id
          · exact ⟨_, List.mem_cons_self, hsame.symm⟩
          · obtain ⟨s, hs, hid⟩ := ih hbundle fun hin =>
              ((mem_dispatch hmem).mp hin).elim hnew fun h => hsame h.1
            exact ⟨s, List.mem_cons_of_mem _ hs, hid⟩

theorem lower_plannerCapability : Text.lower plannerCapability = plannerCapability := by decide +kernel

theorem any_lower_iff {agent : AgentPresence} :
    agent.capabilities.any (fun cap => Text.lower cap = Text.lower plannerCapability) = true ↔
      plannerCapability ∈ agent.capabilities.map Text.lower := by
  simp only [lower_plannerCapability, List.any_eq_true, decide_eq_true_eq, List.mem_map]

/-- A planner is found exactly where the pool has an agent with the capability. -/
theorem plannerFor_isSome_iff {bundle : Bundle} :
    (plannerFor pass bundle).isSome = true ↔
      ∃ agent ∈ (pass.pool bundle.id).agents, some agent.cookbookId = bundle.cookbookId ∧
        TaskDispatchController.isGateway agent = true ∧
        plannerCapability ∈ agent.capabilities.map Text.lower := by
  rw [plannerFor]
  cases hcookbook : bundle.cookbookId with
  | none => simp
  | some cookbookId =>
    rw [Option.bind_some]
    constructor
    · intro hfound
      obtain ⟨planner, hplanner⟩ := Option.isSome_iff_exists.mp hfound
      obtain ⟨hpick, hcap⟩ := Option.filter_eq_some_iff.mp hplanner
      obtain ⟨hmem, hgateway, -⟩ := of_pickAgentForKind hpick
      rw [List.mem_filter, beq_iff_eq] at hmem
      exact ⟨planner, hmem.1, congrArg some hmem.2, hgateway, by simpa using hcap⟩
    · rintro ⟨agent, hagent, hsame, hgateway, hcap⟩
      have hmem : agent ∈ (pass.pool bundle.id).agents.filter (·.cookbookId == cookbookId) :=
        List.mem_filter.mpr ⟨hagent, beq_iff_eq.mpr (Option.some.inj hsame)⟩
      cases hpick : pickAgentForKind Text.lower _ plannerCapability [] with
      | none =>
        exact absurd (pickAgentForKind_eq_none_iff.mp hpick agent hmem hgateway) List.not_mem_nil
      | some planner =>
        have hcapable := capable_of_pickAgentForKind hpick hmem hgateway List.not_mem_nil
          (any_lower_iff.mpr hcap)
        rw [Option.isSome_filter]
        simpa using any_lower_iff.mp hcapable

theorem findsPlanner_iff :
    pass.FindsPlanner bundleId ↔
      ∃ bundle ∈ findEmptyBundles pass, bundle.id = bundleId ∧ (plannerFor pass bundle).isSome = true := by
  refine exists_congr fun bundle => and_congr_right fun _ => and_congr_right fun hid => ?_
  subst hid
  exact plannerFor_isSome_iff.symm

/-- What is sent in a pass: for a bundle that was not reserved and for which it finds a planner. -/
theorem of_mem_reconcile_sent {s : Dispatch} (hs : s ∈ (reconcile pass dispatched).2) :
    s.answer = pass.answer s.request.bundleId ∧ s.request.bundleId ∉ dispatched ∧
      pass.FindsPlanner s.request.bundleId := by
  rw [reconcile] at hs
  split at hs
  · cases hs
  · obtain ⟨hanswer, hnot, bundle, hbundle, hid, hplanner⟩ := of_mem_sent hs
    refine ⟨hanswer, fun hin => hnot ?_, findsPlanner_iff.mpr ⟨bundle, hbundle, hid, hplanner⟩⟩
    exact Finset.mem_filter.mpr ⟨hin, List.mem_map.mpr ⟨bundle, hbundle, hid⟩⟩

theorem offers_of_findsPlanner (hfinds : pass.FindsPlanner bundleId) (hnew : bundleId ∉ dispatched) :
    Offers (reconcile pass dispatched).2 bundleId := by
  obtain ⟨bundle, hbundle, rfl, hplanner⟩ := findsPlanner_iff.mp hfinds
  rw [reconcile, if_neg (by simpa using List.ne_nil_of_mem hbundle)]
  exact offers_of_plannerFor hbundle hplanner fun hin => hnew (Finset.mem_filter.mp hin).1

/-- What is reserved after a pass was reserved before it, or its request was sent and is kept. -/
theorem of_mem_reconcile (h : bundleId ∈ (reconcile pass dispatched).1) :
    bundleId ∈ dispatched ∨ ∃ s ∈ (reconcile pass dispatched).2, s.request.bundleId = bundleId ∧
      s.answer.kept = true := by
  rw [reconcile] at h ⊢
  split at h
  · exact absurd h (Finset.notMem_empty _)
  · rw [if_neg ‹_›]
    exact (mem_dispatchEmpty.mp h).imp_left fun hin => (Finset.mem_filter.mp hin).1

/-- A request that is kept leaves its bundle reserved. -/
theorem reserved_of_kept {s : Dispatch} (hs : s ∈ (reconcile pass dispatched).2)
    (hkept : s.answer.kept = true) : s.request.bundleId ∈ (reconcile pass dispatched).1 := by
  rw [reconcile] at hs ⊢
  split at hs
  · cases hs
  · rw [if_neg ‹_›]
    exact mem_dispatchEmpty.mpr (.inr ⟨s, hs, rfl, hkept⟩)

end PlannerDispatchController

/-! ### What a run does -/

namespace PlannerRun

open PlannerDispatchController

variable {passes between : List PlannerPass} {bundleId : String}

theorem RefusesOpenly.of_concat {last : PlannerPass} (hopen : RefusesOpenly (passes ++ [last])) :
    RefusesOpenly passes := by
  rintro earlier pass later rfl
  exact hopen earlier pass (later ++ [last]) (by simp)

/-- Where the hub refuses openly, the request of every reserved bundle has been accepted or has timed out. -/
theorem accepted_of_reserved (hopen : RefusesOpenly passes) (h : bundleId ∈ (ofPasses passes).dispatched) :
    ∃ s ∈ (ofPasses passes).sent, s.request.bundleId = bundleId ∧
      (s.answer.accepted = true ∨ s.answer.timedOut = true) := by
  induction passes using List.reverseRecOn with
  | nil => exact absurd h (Finset.notMem_empty _)
  | append_singleton passes last ih =>
    rw [ofPasses_concat] at h ⊢
    rcases of_mem_reconcile h with hin | ⟨s, hs, hid, hkept⟩
    · obtain ⟨s, hs, hrest⟩ := ih (RefusesOpenly.of_concat hopen) hin
      exact ⟨s, List.mem_append_left _ hs, hrest⟩
    · refine ⟨s, List.mem_append_right _ hs, hid, ?_⟩
      obtain ⟨hanswer, hnew, hfinds⟩ := of_mem_reconcile_sent hs
      have hplain := hopen passes last [] rfl _ hfinds hnew
      rw [← hanswer] at hplain
      rw [HubAnswer.kept_eq, hplain, Bool.or_false, Bool.or_eq_true] at hkept
      exact hkept

/-- A bundle that is not reserved stays so while no pass finds a planner for it. -/
theorem not_reserved_of_no_planner (hnone : ∀ p ∈ between, ¬ p.FindsPlanner bundleId)
    (h : bundleId ∉ (ofPasses passes).dispatched) :
    bundleId ∉ (ofPasses (passes ++ between)).dispatched := by
  induction between using List.reverseRecOn with
  | nil => rwa [List.append_nil]
  | append_singleton between last ih =>
    rw [← List.append_assoc, ofPasses_concat]
    intro hin
    rcases of_mem_reconcile hin with hin | ⟨s, hs, rfl, -⟩
    · exact ih (fun p hp => hnone p (List.mem_append_left _ hp)) hin
    · exact hnone last (by simp) (of_mem_reconcile_sent hs).2.2

end PlannerRun

/-- For every run: where the hub refuses nothing with status 200, the reservations match what it accepts. -/
theorem reservationsMatch_of_refusesOpenly (passes : List PlannerPass) (hopen : RefusesOpenly passes) :
    ReservationsMatch passes where
  reserved := by
    rintro earlier last later rfl bundleId hin -
    have hall : earlier ++ last :: later = earlier ++ [last] ++ later := by simp
    refine PlannerRun.accepted_of_reserved (fun before pass after heq => ?_) hin
    exact hopen before pass (after ++ later) (by rw [hall, heq, List.append_assoc, List.cons_append])
  offered := by
    rintro earlier pass between next later rfl s hs hrefused hnone hfinds
    obtain ⟨hanswer, hnew, hfound⟩ := PlannerDispatchController.of_mem_reconcile_sent hs
    have hplain := hopen earlier pass (between ++ next :: later) (by simp) _ hfound hnew
    have hnot : s.request.bundleId ∉ (PlannerRun.ofPasses (earlier ++ [pass])).dispatched := by
      rw [PlannerRun.ofPasses_concat]
      intro hin
      rcases PlannerDispatchController.of_mem_reconcile hin with hin | ⟨s', hs', hid, hkept⟩
      · exact hnew hin
      · obtain ⟨hanswer', -, -⟩ := PlannerDispatchController.of_mem_reconcile_sent hs'
        rw [hanswer', hid, ← hanswer] at hkept
        rw [← hanswer] at hplain
        rw [HubAnswer.not_kept_of_refused hrefused hplain] at hkept
        cases hkept
    have hbetween := PlannerRun.not_reserved_of_no_planner hnone hnot
    rw [List.append_assoc, List.singleton_append] at hbetween
    exact PlannerDispatchController.offers_of_findsPlanner hfinds hbetween

/-- One empty bundle and one planner. -/
def plannerDb : PlannerDb where
  bundles := ⟨[{ id := "bun_1", cookbookId := some "cb_1" }], List.nodup_singleton _⟩
  agents := [{
    agentId := "planner@me"
    cookbookId := "cb_1"
    capabilities := ["generate-graph"]
    endpointUrl := some "http://planner"
    status := .online }]
  autoplanEnabled := fun _ => true

/-- A pass on it; the hub accepts. -/
def acceptedPass : PlannerPass where
  selected := plannerDb
  reread := fun _ => plannerDb
  pool := fun _ => plannerDb
  finished := plannerDb
  answer := fun _ => .response (jsonrpcResult .null (.dict [("id", .str "task_1")]))

/-- A run of two passes that the hub accepts in. -/
theorem reservationsMatch_of_accepted :
    ReservationsMatch [acceptedPass, acceptedPass] :=
  reservationsMatch_of_refusesOpenly _ fun earlier pass later heq bundleId _ _ => by
    have hpass : pass ∈ [acceptedPass, acceptedPass] := by simp [heq]
    obtain rfl : pass = acceptedPass := by simpa using hpass
    rfl

/-! ### A refusal with status 200 -/

/-- A pass on the same database; the hub answers what it answers for an agent that is away. -/
def refusedPass : PlannerPass where
  selected := plannerDb
  reread := fun _ => plannerDb
  pool := fun _ => plannerDb
  finished := plannerDb
  answer := fun _ => .response (jsonrpcError .null (-32000) "Agent me/planner is offline")

theorem refusedPass_findsPlanner : refusedPass.FindsPlanner "bun_1" := by
  refine ⟨{ id := "bun_1", cookbookId := some "cb_1" }, ?_, rfl, _, List.mem_cons_self, rfl, ?_, ?_⟩
  · refine List.mem_filterMap.mpr ⟨{ id := "bun_1", cookbookId := some "cb_1" }, ?_, rfl⟩
    exact List.mem_mergeSort.mpr (List.mem_filter.mpr ⟨List.mem_cons_self, by decide +kernel⟩)
  · decide +kernel
  · decide +kernel

/-- After the pass the bundle is reserved, still empty, and nobody has accepted it. -/
theorem refused_bundle_reserved : ¬ ReservationsMatch [refusedPass] := by
  intro h
  obtain ⟨s, hs, hid⟩ := PlannerDispatchController.offers_of_findsPlanner refusedPass_findsPlanner
    (Finset.notMem_empty _)
  obtain ⟨hanswer, -, -⟩ := PlannerDispatchController.of_mem_reconcile_sent hs
  have hreserved := PlannerDispatchController.reserved_of_kept hs (by rw [hanswer]; rfl)
  rw [hid] at hreserved
  obtain ⟨s', hs', hid', hsettled⟩ := h.reserved [] refusedPass [] rfl "bun_1" hreserved
    (by decide +kernel)
  obtain ⟨hanswer', -, -⟩ := PlannerDispatchController.of_mem_reconcile_sent hs'
  rw [hanswer'] at hsettled
  rcases hsettled with haccepted | htimedOut
  · cases haccepted
  · cases htimedOut

end Krewhub
