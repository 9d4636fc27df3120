import Mathlib.Data.List.Basic
import Mathlib.Tactic.Common

/-!
# Frames in a stream

A reader that collects the pieces of a stream in a buffer and after each piece handles the frames that are
complete. The frames it handles are those of the whole stream, however it is cut (`feed_eq`): taking a frame
off the buffer only looks at what is there, and a frame that is there stays when more comes.
-/

namespace Krewhub

/-- What a handler does after a frame: it goes on, or it stops. -/
inductive Flow (S E : Type) where
  | next (s : S)
  | stop (e : E)
  deriving DecidableEq, Repr

/-- A way to take the first frame off a buffer. -/
structure Framing (β F : Type) where
  take : List β → Option (F × List β)
  shorter : ∀ {b f rest}, take b = some (f, rest) → rest.length < b.length
  stable : ∀ {b f rest} (more : List β), take b = some (f, rest) → take (b ++ more) = some (f, rest ++ more)

namespace Framing

variable {β F S O E : Type} (C : Framing β F) (handle : S → F → List O × Flow S E)

/-- The frames that are complete, and what is left of the buffer after them. -/
def split (b : List β) : List F × List β :=
  match h : C.take b with
  | none => ([], b)
  | some (f, rest) => (f :: (split rest).1, (split rest).2)
termination_by b.length
decreasing_by all_goals exact C.shorter h

def frames (b : List β) : List F := (C.split b).1

/-- Handling the frames of a buffer until none is complete. -/
def drain (s : S) (b : List β) : List O × Flow (S × List β) E :=
  match h : C.take b with
  | none => ([], .next (s, b))
  | some (f, rest) =>
    match handle s f with
    | (out, .stop e) => (out, .stop e)
    | (out, .next s') => (out ++ (drain s' rest).1, (drain s' rest).2)
termination_by b.length
decreasing_by all_goals exact C.shorter h

/-- The loop over the pieces of a stream. -/
def feed (s : S) (b : List β) : List (List β) → List O × Flow S E
  | [] => ([], .next s)
  | piece :: pieces =>
    match C.drain handle s (b ++ piece) with
    | (out, .stop e) => (out, .stop e)
    | (out, .next (s', b')) => (out ++ (feed s' b' pieces).1, (feed s' b' pieces).2)

/-- Handling frames one after the other. -/
def deliver (s : S) : List F → List O × Flow S E
  | [] => ([], .next s)
  | f :: fs =>
    match handle s f with
    | (out, .stop e) => (out, .stop e)
    | (out, .next s') => (out ++ (deliver s' fs).1, (deliver s' fs).2)

variable {C handle} {b : List β} {s : S}

theorem split_of_none (h : C.take b = none) : C.split b = ([], b) := by
  rw [split]
  split
  · rfl
  · rename_i f rest h'
    rw [h] at h'
    cases h'

theorem split_of_some {f : F} {rest : List β} (h : C.take b = some (f, rest)) :
    C.split b = (f :: (C.split rest).1, (C.split rest).2) := by
  rw [split]
  split
  · rename_i h'
    rw [h] at h'
    cases h'
  · rename_i f' rest' h'
    rw [h] at h'
    obtain ⟨rfl, rfl⟩ := Prod.mk.inj (Option.some.inj h')
    rfl

@[simp] theorem frames_of_none (h : C.take b = none) : C.frames b = [] := by
  rw [frames, split_of_none h]

theorem frames_of_some {f : F} {rest : List β} (h : C.take b = some (f, rest)) :
    C.frames b = f :: C.frames rest := by
  rw [frames, split_of_some h]
  rfl

/-- More of the stream adds frames after those that are complete. -/
theorem frames_append (C : Framing β F) (b more : List β) :
    C.frames (b ++ more) = C.frames b ++ C.frames ((C.split b).2 ++ more) := by
  induction b using split.induct C with
  | case1 b htake => rw [frames_of_none htake, split_of_none htake, List.nil_append]
  | case2 b f rest htake ih =>
    rw [frames_of_some (C.stable more htake), frames_of_some htake, split_of_some htake, ih, List.cons_append]

theorem take_split (b : List β) : C.take (C.split b).2 = none := by
  induction b using split.induct C with
  | case1 b htake => rwa [split_of_none htake]
  | case2 b f rest htake ih => rwa [split_of_some htake]

/-- The loop over a buffer handles its frames, and leaves what is behind them. -/
theorem drain_eq (s : S) (b : List β) :
    C.drain handle s b = ((deliver handle s (C.frames b)).1,
      match (deliver handle s (C.frames b)).2 with
      | .stop e => .stop e
      | .next s' => .next (s', (C.split b).2)) := by
  induction b using split.induct C generalizing s with
  | case1 b htake =>
    rw [drain, frames_of_none htake, split_of_none htake, deliver]
    split
    · rfl
    · rename_i htake'
      rw [htake] at htake'
      cases htake'
  | case2 b f rest htake ih =>
    rw [drain, frames_of_some htake, split_of_some htake, deliver]
    split
    · rename_i htake'
      rw [htake] at htake'
      cases htake'
    · rename_i f' rest' htake'
      rw [htake] at htake'
      obtain ⟨rfl, rfl⟩ := Prod.mk.inj (Option.some.inj htake')
      split
      · rfl
      · rename_i out s' _
        rw [ih s']

theorem deliver_append (s : S) (fs gs : List F) :
    deliver handle s (fs ++ gs) =
      match deliver handle s fs with
      | (out, .stop e) => (out, .stop e)
      | (out, .next s') => (out ++ (deliver handle s' gs).1, (deliver handle s' gs).2) := by
  induction fs generalizing s with
  | nil => rfl
  | cons f fs ih =>
    rw [List.cons_append, deliver, deliver]
    split
    · rfl
    · rename_i out s' _
      rw [ih s']
      rcases deliver handle s' fs with ⟨out', e | s''⟩
      · simp
      · rfl

/-- **However a stream is cut, the frames that are handled are those of the whole.** -/
theorem feed_eq (s : S) {b : List β} (h : C.take b = none) (pieces : List (List β)) :
    C.feed handle s b pieces = deliver handle s (C.frames (b ++ pieces.flatten)) := by
  induction pieces generalizing s b with
  | nil => rw [List.flatten_nil, List.append_nil, frames_of_none h, feed, deliver]
  | cons piece pieces ih =>
    rw [feed, drain_eq, List.flatten_cons, ← List.append_assoc, C.frames_append (b ++ piece) pieces.flatten,
      deliver_append]
    rcases deliver handle s (C.frames (b ++ piece)) with ⟨out, s' | e⟩
    · dsimp only
      rw [ih s' (take_split _)]
    · rfl

end Framing

end Krewhub
