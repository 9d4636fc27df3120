import Krewhub.Watch.Log

/-!
# Filters of a subscription

The options of a subscription are read twice: `replay` turns them into a query of the watch log, and
`_matches` decides on every event that is notified.
-/

namespace Krewhub

structure WatchOptions where
  resourceType : Option String := none
  cookbookId : Option String := none
  since : Int := 0
  resourceTypes : List String := []
  channelPrefixes : List String := []
  deriving DecidableEq, Repr

def channelMatches (pattern channel : String) : Bool :=
  if channel = "" then false
  else if pattern.toList.getLast? = some '*' then
    pattern.toList.dropLast.isPrefixOf channel.toList
  else channel == pattern

namespace WatchOptions

/-- `_matches`. -/
def matchesEvent (opts : WatchOptions) (event : WatchEvent) : Bool :=
  if opts.resourceType.any fun t => t != "" && event.resourceType != t then false
  else if !opts.resourceTypes.isEmpty && !opts.resourceTypes.contains event.resourceType then false
  else if opts.cookbookId.any fun c => c != "" && event.cookbookId != some c then false
  else if !opts.channelPrefixes.isEmpty &&
      !opts.channelPrefixes.any (channelMatches · event.channel) then false
  else true

/-- What `_matches` asks for besides the one resource type. -/
def narrows (opts : WatchOptions) (event : WatchEvent) : Bool :=
  (opts.resourceTypes.isEmpty || opts.resourceTypes.contains event.resourceType) &&
    (opts.cookbookId.all fun c => c == "" || event.cookbookId == some c) &&
    (opts.channelPrefixes.isEmpty || opts.channelPrefixes.any (channelMatches · event.channel))

theorem matchesEvent_eq (opts : WatchOptions) (event : WatchEvent) :
    opts.matchesEvent event =
      ((opts.resourceType.all fun t => t == "" || event.resourceType == t) && opts.narrows event) := by
  rw [matchesEvent, narrows]
  cases htype : opts.resourceType <;> cases hcookbook : opts.cookbookId <;>
    simp only [Option.any_none, Option.any_some, Option.all_none, Option.all_some] <;> grind

end WatchOptions

/-- `WatchService.replay`. -/
def replay (opts : WatchOptions) (log : WatchLog) : List WatchEvent :=
  (log.listSince opts.since opts.resourceType).map WatchEntry.toEvent

/-- The query selects the entry. -/
def WatchOptions.selects (opts : WatchOptions) (e : WatchEntry) : Bool :=
  opts.resourceType.all (e.resourceType == ·)

/-- Every entry after `since` that the query selects passes the other filters, and the others fail them
when the resource type is the empty text, which `_matches` takes for none. -/
def WatchOptions.ReadsAlike (opts : WatchOptions) (log : WatchLog) : Prop :=
  ∀ e ∈ log.after opts.since,
    if opts.selects e then opts.narrows e.toEvent = true
    else opts.resourceType = some "" → opts.narrows e.toEvent = false

instance (opts : WatchOptions) (log : WatchLog) : Decidable (opts.ReadsAlike log) := by
  unfold WatchOptions.ReadsAlike
  infer_instance

theorem filter_toEvent_inj {p q : WatchEntry → Bool} {l : List WatchEntry} :
    (l.filter p).map WatchEntry.toEvent = (l.filter q).map WatchEntry.toEvent ↔
      ∀ e ∈ l, p e = q e := by
  rw [List.map_inj_right fun _ _ => WatchEntry.toEvent_inj.mp]
  refine ⟨fun h e he => ?_, fun h => List.filter_congr h⟩
  have hmem : e ∈ l.filter p ↔ e ∈ l.filter q := by rw [h]
  rw [List.mem_filter, List.mem_filter, and_congr_right_iff] at hmem
  exact Bool.eq_iff_iff.mpr (hmem he)

/-- The query and the predicate agree on an entry. -/
theorem selects_eq_matchesEvent_iff (opts : WatchOptions) (e : WatchEntry) :
    opts.selects e = opts.matchesEvent e.toEvent ↔
      if opts.selects e then opts.narrows e.toEvent = true
      else opts.resourceType = some "" → opts.narrows e.toEvent = false := by
  rw [WatchOptions.matchesEvent_eq, WatchEntry.toEvent_resourceType, WatchOptions.selects]
  cases htype : opts.resourceType with
  | none => simp
  | some t =>
    simp only [Option.all_some, Option.some.injEq]
    by_cases hsame : e.resourceType = t
    · simp [hsame]
    · have hbeq : (e.resourceType == t) = false := beq_false_of_ne hsame
      rw [hbeq, if_neg Bool.false_ne_true, Bool.or_false]
      by_cases hempty : t = "" <;> simp [hempty]

/-- A replay is what the log holds after `since` of the events a notification would have delivered, in
order, exactly when the two readings of the options agree on the log. -/
theorem replay_eq_filter_iff (opts : WatchOptions) (log : WatchLog)
    (hlimit : log.entries.length ≤ 500) :
    replay opts log =
        ((log.after opts.since).map WatchEntry.toEvent).filter opts.matchesEvent ↔
      opts.ReadsAlike log := by
  have htake : log.listSince opts.since opts.resourceType =
      (log.after opts.since).filter opts.selects := by
    rw [WatchLog.listSince, List.take_of_length_le]
    · rfl
    · exact Nat.le_trans (List.length_filter_le _ _) (Nat.le_trans (List.length_filter_le _ _) hlimit)
  rw [replay, htake, List.filter_map, filter_toEvent_inj]
  exact forall₂_congr fun e _ => selects_eq_matchesEvent_iff opts e

/-- A task was created, and then completed. -/
def completedLog : WatchLog :=
  (WatchLog.empty.append
    { resourceType := "task", resourceId := "task_1", eventType := .added }).append
    { resourceType := "task", resourceId := "task_1", eventType := .modified,
      payload := { status := some "done" } }

theorem replay_all_of_completedLog :
    replay { since := 1, channelPrefixes := ["task:*"] } completedLog =
        ((completedLog.after 1).map WatchEntry.toEvent).filter
          (WatchOptions.matchesEvent { since := 1, channelPrefixes := ["task:*"] }) ↔
      WatchOptions.ReadsAlike { since := 1, channelPrefixes := ["task:*"] } completedLog :=
  replay_eq_filter_iff _ _ (by decide)

/-- A client of the completed tasks is replayed the created ones. -/
theorem replay_ignores_channels :
    completedLog.entries.length ≤ 500 ∧
      replay { channelPrefixes := ["task:completed"] } completedLog ≠
        ((completedLog.after 0).map WatchEntry.toEvent).filter
          (WatchOptions.matchesEvent { channelPrefixes := ["task:completed"] }) := by
  decide +kernel

end Krewhub
