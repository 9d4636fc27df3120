import Krewhub.Base.Like
import Krewhub.Tape.Store

/-!
# The fork entries of a bundle

The entries of a task go to a tape of its own, and those of a bundle are the entries of all tapes whose names begin
with the name of the bundle. The table is asked with `LIKE`, which lets the name be spelled in other ways.
-/

namespace Krewhub

open Like (like Spells)

/-- The tape of a task. -/
def forkTape (bundleId taskId : String) : String := "fork:" ++ bundleId ++ "/" ++ taskId

def forkPrefix (bundleId : String) : String := "fork:" ++ bundleId ++ "/"

namespace TapeEntries

/-- `SELECT … WHERE tape_name LIKE ? ORDER BY id ASC`. -/
def selectLike (t : TapeEntries) (pattern : String) : List TapeRow :=
  t.rows.filter fun row => like pattern.toList row.tapeName.toList

/-- The rows whose tape names begin with a text, in the order of their ids. -/
def selectPrefix (t : TapeEntries) (text : String) : List TapeRow :=
  t.rows.filter fun row => text.toList.isPrefixOf row.tapeName.toList

variable {V : Type} (c : JsonColumn V)

def entriesByTapePrefix (t : TapeEntries) (text : String) : Except PyExc (List (TapeEntry V)) :=
  (t.selectLike (text ++ "%")).mapM (·.toEntry c)

def getBundleForkEntries (t : TapeEntries) (bundleId : String) : Except PyExc (List (TapeEntry V)) :=
  t.entriesByTapePrefix c (forkPrefix bundleId)

/-- A tape whose name begins with a spelling of the text has a name that begins with the text. -/
def SpelledOnce (t : TapeEntries) (text : String) : Prop :=
  ∀ row ∈ t.rows, ∀ spelling, Spells text.toList spelling → spelling <+: row.tapeName.toList →
    text.toList <+: row.tapeName.toList

variable {t : TapeEntries} {text : String}

theorem like_percent_iff {name : String} :
    like (text ++ "%").toList name.toList = true ↔
      ∃ spelling, Spells text.toList spelling ∧ spelling <+: name.toList := by
  rw [Like.like_iff, String.toList_append]
  exact Like.spells_append_percent_iff

theorem selectLike_eq_iff : t.selectLike (text ++ "%") = t.selectPrefix text ↔ t.SpelledOnce text := by
  constructor
  · intro h row hrow spelling hspells hprefix
    have hmem : row ∈ t.selectLike (text ++ "%") :=
      List.mem_filter.mpr ⟨hrow, like_percent_iff.mpr ⟨spelling, hspells, hprefix⟩⟩
    rw [h] at hmem
    exact List.isPrefixOf_iff_prefix.mp (List.mem_filter.mp hmem).2
  · intro h
    refine List.filter_congr fun row hrow => ?_
    rw [Bool.eq_iff_iff, like_percent_iff, List.isPrefixOf_iff_prefix]
    constructor
    · rintro ⟨spelling, hspells, hprefix⟩
      exact h row hrow spelling hspells hprefix
    · exact fun hprefix => ⟨text.toList, .refl _, hprefix⟩

end TapeEntries

/-- **The rows that are read for a bundle are its own**, those of the tapes whose names begin with its prefix, in
the order of their ids, exactly where no other tape has a name that begins with a spelling of the prefix; the
entries are then theirs. -/
theorem bundleForkEntries_iff (t : TapeEntries) (bundleId : String) :
    (t.selectLike (forkPrefix bundleId ++ "%") = t.selectPrefix (forkPrefix bundleId) ↔
        t.SpelledOnce (forkPrefix bundleId)) ∧
      (t.SpelledOnce (forkPrefix bundleId) → ∀ (V : Type) (c : JsonColumn V),
        t.getBundleForkEntries c bundleId = (t.selectPrefix (forkPrefix bundleId)).mapM (·.toEntry c)) := by
  refine ⟨TapeEntries.selectLike_eq_iff, fun h V c => ?_⟩
  rw [TapeEntries.getBundleForkEntries, TapeEntries.entriesByTapePrefix, TapeEntries.selectLike_eq_iff.mpr h]

/-- An entry of another bundle, whose id has an `X` where this one has `_`. -/
theorem bundleForkEntries_leak :
    ¬ ∀ (t : TapeEntries) (bundleId : String),
      t.selectLike (forkPrefix bundleId ++ "%") = t.selectPrefix (forkPrefix bundleId) := by
  intro h
  have hrows := h (TapeEntries.insert ⟨[], 0, .nil, nofun⟩ (forkTape "bunX1" "t") "anchor" "\x7b\x7d" "\x7b\x7d" "u") "bun_1"
  revert hrows
  decide +kernel

end Krewhub
