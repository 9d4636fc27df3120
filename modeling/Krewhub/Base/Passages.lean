import Mathlib.Data.List.DropRight
import Mathlib.Data.List.TakeWhile

/-!
# Passages of a text

`Passages blocks text` says that the blocks stand in the text one after another, without overlapping.
Text can be added at either end, and characters stripped from either end, as long as the blocks
themselves have none to strip.
-/

namespace Krewhub

variable {α : Type} {p : α → Bool}

/-- The blocks stand in the text in this order, at places that do not overlap. -/
def Passages : List (List α) → List α → Prop
  | [], _ => True
  | block :: blocks, text =>
    ∃ before after, text = before ++ block ++ after ∧ Passages blocks after

theorem passages_singleton {block text : List α} : Passages [block] text ↔ block <:+: text := by
  constructor
  · rintro ⟨before, after, rfl, _⟩
    exact ⟨before, after, rfl⟩
  · rintro ⟨before, after, rfl⟩
    exact ⟨before, after, rfl, trivial⟩

theorem Passages.append {blocks blocks' : List (List α)} {text text' : List α}
    (h : Passages blocks text) (h' : Passages blocks' text') :
    Passages (blocks ++ blocks') (text ++ text') := by
  induction blocks generalizing text with
  | nil =>
    cases blocks' with
    | nil => trivial
    | cons block blocks' =>
      obtain ⟨before, after, rfl, hafter⟩ := h'
      exact ⟨text ++ before, after, by simp, hafter⟩
  | cons block blocks ih =>
    obtain ⟨before, after, rfl, hafter⟩ := h
    exact ⟨before, after ++ text', by simp, ih hafter⟩

theorem Passages.append_right {blocks : List (List α)} {text : List α} (h : Passages blocks text)
    (more : List α) : Passages blocks (text ++ more) := by
  simpa using h.append (show Passages [] more from trivial)

theorem Passages.reverse {blocks : List (List α)} {text : List α} (h : Passages blocks text) :
    Passages (blocks.map List.reverse).reverse text.reverse := by
  induction blocks generalizing text with
  | nil => trivial
  | cons block blocks ih =>
    obtain ⟨before, after, rfl, hafter⟩ := h
    have hblock : Passages [block.reverse] (block.reverse ++ before.reverse) :=
      ⟨[], before.reverse, rfl, trivial⟩
    simpa using (ih hafter).append hblock

/-- Neither end of the block has anything to strip. -/
def Trimmed (p : α → Bool) (block : List α) : Prop :=
  block.dropWhile p = block ∧ block.rdropWhile p = block

theorem Trimmed.reverse {block : List α} (h : Trimmed p block) : Trimmed p block.reverse := by
  refine ⟨?_, by rw [List.rdropWhile_reverse, h.1]⟩
  have hend := congrArg List.reverse h.2
  rwa [List.rdropWhile, List.reverse_reverse] at hend

theorem dropWhile_start {start text : List α} (hstart : start <+: text)
    (htext : text.dropWhile p = text) : start.dropWhile p = start := by
  obtain ⟨rest, rfl⟩ := hstart
  rw [List.dropWhile_eq_self_iff] at htext ⊢
  intro hlength
  have hfirst := htext (by rw [List.length_append]; omega)
  rwa [List.getElem_append_left hlength] at hfirst

/-- What is left of a text stripped at both ends. -/
theorem trimmed_strip (text : List α) : Trimmed p ((text.dropWhile p).rdropWhile p) :=
  ⟨dropWhile_start (List.rdropWhile_prefix p _) (List.dropWhile_idempotent p text),
    List.rdropWhile_idempotent p _⟩

/-- Stripping the front of a text keeps its trimmed passages. -/
theorem Passages.dropWhile {blocks : List (List α)} {text : List α}
    (hblocks : ∀ block ∈ blocks, Trimmed p block) (h : Passages blocks text) :
    Passages blocks (text.dropWhile p) := by
  induction blocks generalizing text with
  | nil => trivial
  | cons block blocks ih =>
    obtain ⟨before, after, rfl, hafter⟩ := h
    have hstart : block.dropWhile p = block := (hblocks block (List.mem_cons_self ..)).1
    rw [List.append_assoc, List.dropWhile_append]
    split
    · rw [List.dropWhile_append, hstart]
      split
      · rename_i hempty
        rw [List.isEmpty_iff] at hempty
        refine ⟨[], after.dropWhile p, by simp [hempty], ?_⟩
        exact ih (fun b hb => hblocks b (List.mem_cons_of_mem _ hb)) hafter
      · exact ⟨[], after, rfl, hafter⟩
    · exact ⟨before.dropWhile p, after, by simp, hafter⟩

/-- Stripping the end of a text keeps its trimmed passages. -/
theorem Passages.rdropWhile {blocks : List (List α)} {text : List α}
    (hblocks : ∀ block ∈ blocks, Trimmed p block) (h : Passages blocks text) :
    Passages blocks (text.rdropWhile p) := by
  have hreversed : ∀ block ∈ (blocks.map List.reverse).reverse, Trimmed p block := by
    intro block hblock
    rw [List.mem_reverse, List.mem_map] at hblock
    obtain ⟨b, hb, rfl⟩ := hblock
    exact (hblocks b hb).reverse
  have hfront := (h.reverse.dropWhile hreversed).reverse
  rw [List.map_reverse, List.reverse_reverse, List.map_map] at hfront
  simpa [List.rdropWhile, Function.comp_def] using hfront

end Krewhub
