import Krewhub.Base.Interleave
import Krewhub.Store.Database

/-!
# What a crash leaves

Every coroutine writes on the one connection, and what it writes is seen by the others at once; it is
on the disk from the next commit on, whichever coroutine awaits it.
-/

namespace Krewhub

/-- The tables as the connection shows them, and as they were at the last commit. -/
structure Durable where
  live : Db
  disk : Db

namespace Durable

def exec (op : Op) (s : Durable) : Durable where
  live := op.exec s.live
  disk := match op with
    | .commit => s.live
    | _ => s.disk

/-- A restart after a crash. -/
def recover (s : Durable) : Durable := ⟨s.disk, s.disk⟩

/-- The tables after the first `k` operations of a coroutine that runs alone. -/
def steps {α : Type} : Nat → Sql α → Durable → Durable
  | 0, _, s => s
  | _ + 1, .done _, s => s
  | _ + 1, .raise _, s => s
  | k + 1, .await op next, s => steps k (next s.live) (exec op s)

/-- What no operation of the run changes is the same after any number of them. -/
theorem steps_inv {α : Type} {P : Op → Prop} {I : Durable → Prop}
    (hP : ∀ op, P op → ∀ s, I s → I (exec op s)) (k : Nat) {c : Sql α} {s : Durable}
    (hc : c.Performs Op.exec P s.live) (hs : I s) : I (steps k c s) := by
  induction k generalizing c s with
  | zero => exact hs
  | succ k ih =>
    cases c with
    | done a => exact hs
    | raise e => exact hs
    | await op next => exact ih hc.2 (hP op hc.1 s hs)

end Durable

end Krewhub
