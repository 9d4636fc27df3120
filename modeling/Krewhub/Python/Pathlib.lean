import Mathlib.Data.List.Basic
import Mathlib.Tactic.Common

/-!
# Paths

`PurePosixPath`: a root, and the parts between slashes, of which the empty ones and `.` are dropped as a path
is read and `..` is kept. `normalise` goes over the parts as the file system does where nothing is a link: a
`..` leaves the directory before it.
-/

namespace Krewhub

/-- A path; the root is empty for a relative one. -/
structure PurePath where
  root : String
  parts : List String
  deriving DecidableEq, Repr

namespace PurePath

/-- The parts of a text that a path keeps. -/
def partsOf (s : String) : List String :=
  ((s.toList.splitOn '/').map String.ofList).filter fun part => part ≠ "" ∧ part ≠ "."

/-- Two slashes are a root of their own, and any other number of them is one. -/
def rootOf (s : String) : String :=
  match s.toList with
  | '/' :: '/' :: '/' :: _ => "/"
  | '/' :: '/' :: _ => "//"
  | '/' :: _ => "/"
  | _ => ""

/-- `Path(s)`. -/
def ofString (s : String) : PurePath := ⟨rootOf s, partsOf s⟩

/-- `p / s`. -/
def join (p : PurePath) (s : String) : PurePath :=
  if rootOf s = "" then { p with parts := p.parts ++ partsOf s } else ofString s

/-- `p.parent`. -/
def parent (p : PurePath) : PurePath := { p with parts := p.parts.dropLast }

/-- One part more, on a stack of those before it. -/
def enter (root : String) (stack : List String) (part : String) : List String :=
  if part = "." then stack
  else if part = ".." then
    match stack with
    | [] => if root = "" then [".."] else []
    | top :: rest => if top = ".." then ".." :: top :: rest else rest
  else part :: stack

/-- The parts that are left, the last first. -/
def stack (p : PurePath) : List String := p.parts.foldl (enter p.root) []

def normalise (p : PurePath) : PurePath := { p with parts := p.stack.reverse }

variable {p : PurePath} {s : String}

theorem partsOf_of_slash_notMem (h : '/' ∉ s.toList) (hempty : s ≠ "") :
    partsOf s = if s = "." then [] else [s] := by
  rw [partsOf, List.splitOn_eq_singleton h, List.map_singleton, String.ofList_toList]
  by_cases hdot : s = "." <;> simp [hdot, hempty]

theorem rootOf_of_slash_notMem (h : '/' ∉ s.toList) : rootOf s = "" := by
  rw [rootOf]
  cases hs : s.toList with
  | nil => rfl
  | cons c cs =>
    rw [hs, List.mem_cons, not_or] at h
    split
    · rename_i heq
      exact absurd (List.cons.inj heq).1.symm h.1
    · rename_i heq
      exact absurd (List.cons.inj heq).1.symm h.1
    · rename_i heq
      exact absurd (List.cons.inj heq).1.symm h.1
    · rfl

@[simp] theorem root_join_of_slash_notMem (h : '/' ∉ s.toList) : (p.join s).root = p.root := by
  rw [join, if_pos (rootOf_of_slash_notMem h)]

/-- A name without a slash is one part more. -/
theorem stack_join (h : '/' ∉ s.toList) (hempty : s ≠ "") : (p.join s).stack = enter p.root p.stack s := by
  rw [join, if_pos (rootOf_of_slash_notMem h), stack, List.foldl_append, partsOf_of_slash_notMem h hempty]
  by_cases hdot : s = "."
  · rw [if_pos hdot, hdot]
    rfl
  · rw [if_neg hdot]
    rfl

theorem enter_of_name {root : String} {names : List String} (hdot : s ≠ ".") (hdots : s ≠ "..") :
    enter root names s = s :: names := by
  unfold enter
  rw [if_neg hdot, if_neg hdots]

end PurePath

end Krewhub
