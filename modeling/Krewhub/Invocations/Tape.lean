import Mathlib.Data.List.Induction
import Mathlib.Tactic.Common

/-!
# Invocation tapes

The events of an invocation, in the table `invocation_events`. `append` takes the next number of the tape
and inserts under a lock of the tape, so that it is one step for everything else that writes there.
-/

namespace Krewhub

inductive EventKind where
  | started
  | done
  | thinking
  | toolCall
  | toolResult
  | reply
  | output
  | diff
  | artifact
  | elicit
  | decision
  | milestone
  | fork
  | handoff
  deriving DecidableEq, Repr

/-- The `ActorType` of a tape event. -/
inductive TapeActor where
  | brain
  | sandbox
  | human
  | system
  deriving DecidableEq, Repr

inductive Action where
  | accept
  | decline
  | cancel
  | error
  | pending
  deriving DecidableEq, Repr

def Action.text : Action → String
  | .accept => "accept"
  | .decline => "decline"
  | .cancel => "cancel"
  | .error => "error"
  | .pending => "pending"

/-- `str | dict`, an object as its text. -/
inductive Content where
  | text (s : String)
  | object (json : String)
  deriving DecidableEq, Repr

/-- `ResultEnvelope`, with what its validator checks. -/
structure ResultEnvelope where
  action : Action
  content : Option Content := none
  reason : Option String := none
  reasoned : action = .cancel ∨ action = .error → reason.any (· != "") = true := by simp
  deriving DecidableEq

/-- An envelope that accepts needs no reason. -/
theorem accept_reasoned : Action.accept = .cancel ∨ Action.accept = .error → (none : Option String).any (· != "") = true := by
  simp

/-- What `append` is called with. -/
structure TapeDraft where
  tapeId : String
  kind : EventKind
  actorType : TapeActor := .system
  actorId : String := ""
  body : String := ""
  result : Option ResultEnvelope := none
  payload : String := ""
  deriving DecidableEq

/-- A row of `invocation_events`. -/
structure TapeEvent extends TapeDraft where
  id : Nat
  deriving DecidableEq

/-- The event belongs to the tape, after the given number. -/
def TapeEvent.isWanted (tapeId : String) (after : Option Int) (e : TapeEvent) : Bool :=
  e.tapeId == tapeId && after.all (decide <| · < (e.id : Int))

theorem TapeEvent.isWanted_eq_true {tapeId : String} {after : Option Int} {e : TapeEvent} :
    e.isWanted tapeId after = true ↔ e.tapeId = tapeId ∧ ∀ n ∈ after, n < (e.id : Int) := by
  cases after <;> simp [isWanted]

/-- `invocation_events`, in the order of insertion, which on every tape is that of the numbers. -/
structure TapeTable where
  events : List TapeEvent := []
  sorted : events.Pairwise fun e e' => e.tapeId = e'.tapeId → e.id < e'.id

namespace TapeTable

def empty : TapeTable where
  sorted := .nil

/-- `COALESCE(MAX(id), -1) + 1`. -/
def nextId (table : TapeTable) (tapeId : String) : Nat :=
  (table.events.filter (·.tapeId == tapeId)).foldl (fun n e => max n (e.id + 1)) 0

theorem lt_foldl_max {l : List TapeEvent} {n : Nat} {e : TapeEvent} (he : e ∈ l) :
    e.id < l.foldl (fun n e => max n (e.id + 1)) n := by
  have hle : ∀ (l : List TapeEvent) (n : Nat), n ≤ l.foldl (fun n e => max n (e.id + 1)) n := by
    intro l
    induction l with
    | nil => exact fun n => Nat.le_refl n
    | cons e l ih => exact fun n => Nat.le_trans (Nat.le_max_left _ _) (ih _)
  induction l generalizing n with
  | nil => cases he
  | cons e' l ih =>
    rcases List.mem_cons.mp he with rfl | he
    · exact Nat.lt_of_lt_of_le (Nat.lt_of_lt_of_le (Nat.lt_succ_self _) (Nat.le_max_right _ _))
        (hle l _)
    · exact ih he

theorem lt_nextId {table : TapeTable} {e : TapeEvent} (he : e ∈ table.events) :
    e.id < table.nextId e.tapeId :=
  lt_foldl_max (List.mem_filter.mpr ⟨he, by simp⟩)

/-- The row `append` adds. -/
def nextEvent (table : TapeTable) (draft : TapeDraft) : TapeEvent :=
  { draft with id := table.nextId draft.tapeId }

/-- The `INSERT` of `append`. -/
def append (table : TapeTable) (draft : TapeDraft) : TapeTable where
  events := table.events ++ [table.nextEvent draft]
  sorted := by
    refine List.pairwise_append.mpr ⟨table.sorted, List.pairwise_singleton _ _, ?_⟩
    intro e he e' he' htape
    obtain rfl := List.mem_singleton.mp he'
    have hlt := lt_nextId he
    rwa [htape] at hlt

def listForTape (table : TapeTable) (tapeId : String) (after : Option Int) : List TapeEvent :=
  table.events.filter (·.isWanted tapeId after)

theorem mem_append {table : TapeTable} {draft : TapeDraft} {e : TapeEvent} :
    e ∈ (table.append draft).events ↔ e ∈ table.events ∨ e = table.nextEvent draft := by
  rw [append, List.mem_append, List.mem_singleton]

theorem mem_listForTape {table : TapeTable} {tapeId : String} {after : Option Int} {e : TapeEvent} :
    e ∈ table.listForTape tapeId after ↔ e ∈ table.events ∧ e.isWanted tapeId after = true :=
  List.mem_filter

theorem pairwise_listForTape (table : TapeTable) (tapeId : String) (after : Option Int) :
    (table.listForTape tapeId after).Pairwise (·.id < ·.id) := by
  refine (List.Pairwise.filter _ table.sorted).imp_of_mem fun {e e'} he he' hlt => hlt ?_
  rw [(TapeEvent.isWanted_eq_true.mp (mem_listForTape.mp he).2).1,
    (TapeEvent.isWanted_eq_true.mp (mem_listForTape.mp he').2).1]

theorem nextEvent_not_mem (table : TapeTable) (draft : TapeDraft) :
    table.nextEvent draft ∉ table.events :=
  fun h => Nat.lt_irrefl _ (lt_nextId h)

/-- An appended event is the last of its tape, and on no other. -/
theorem listForTape_append (table : TapeTable) (draft : TapeDraft) (tapeId : String)
    (after : Option Int) :
    (table.append draft).listForTape tapeId after = table.listForTape tapeId after ++
      [table.nextEvent draft].filter (·.isWanted tapeId after) := by
  rw [listForTape, append, List.filter_append, listForTape]

end TapeTable

end Krewhub
