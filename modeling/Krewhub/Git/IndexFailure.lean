import Krewhub.Git.Indexer
import Mathlib.Data.List.Induction

/-!
# What a failed index leaves

A call that raises has written the cookbook's row before it has so much as looked at the recipes. The row is not
taken back, and the next commit on the connection, anyone's, keeps it: the index is as it was before only where
the first read or the first write is what raises, or where everything that was written was there already.

In the current schema there are no recipes, every call raises, and the row of the cookbook is written regardless.
-/

namespace Krewhub

namespace Git

open Statements

namespace Push

variable {p : Push} {s t : Faulty Catalog}

/-- The statements on the recipes, in order. -/
def recipeStatements (p : Push) (t : Catalog) : List IndexOp :=
  let cookbookId := p.cookbookId (p.cookbookIn t)
  p.deleteRemoved (existingRecipes cookbookId t) ++ p.upsertRecipes cookbookId (existingRecipes cookbookId t)

/-! ### How far it gets -/

theorem recipes_writeCookbook (row : Option CookbookRow) (t : Catalog) :
    (index.apply (p.writeCookbook row) t).recipes = t.recipes := by
  cases row <;> rfl

theorem existingRecipes_congr {cookbookId : String} {t t' : Catalog} (h : t.recipes = t'.recipes) :
    existingRecipes cookbookId t = existingRecipes cookbookId t' := by
  rw [existingRecipes, existingRecipes, h]

/-- The loops over the recipes and the commit, one statement after the other. -/
theorem executeAll_commit (removed upserted : List IndexOp) (row : CookbookRow) :
    (do
      index.executeAll removed
      index.executeAll upserted
      index.execute .commit fun _ => ()
      return row : Indexing CookbookRow) =
    index.executeAll (removed ++ upserted ++ [.commit]) >>= fun _ => pure row := by
  rw [executeAll_append, executeAll_append, executeAll, executeAll]
  simp only [bind_assoc, pure_bind]

/-- Where the loops or the commit raise, the statements before have gone through. -/
theorem loops_error {removed upserted : List IndexOp} {row : CookbookRow} {e : StatementError}
    (hrun : (do
      index.executeAll removed
      index.executeAll upserted
      index.execute .commit fun _ => ()
      return row : Indexing CookbookRow).run index.exec s = (.error e, t)) :
    ∃ k, k ≤ (removed ++ upserted).length ∧ index.Through s ((removed ++ upserted).take k) t ∧
      ((do
        index.executeAll removed
        index.executeAll upserted
        index.execute .commit fun _ => ()
        return row : Indexing CookbookRow).ops index.exec s).length = k + 1 := by
  rw [executeAll_commit] at hrun ⊢
  rcases run_executeAll (removed ++ upserted ++ [.commit]) s with
    ⟨t', hok, -, -⟩ | ⟨k, t', hk, herror, hlength, hthrough⟩
  · rw [Coro.run_bind_ok index.exec hok] at hrun
    cases (Prod.mk.inj hrun).1
  · rw [Coro.run_bind_error index.exec herror] at hrun
    obtain rfl := (Prod.mk.inj hrun).2
    rw [List.length_append, List.length_singleton] at hk
    have hle : k ≤ (removed ++ upserted).length := Nat.le_of_lt_succ hk
    rw [List.take_append_of_le_length hle] at hthrough
    refine ⟨k, hle, hthrough, ?_⟩
    rw [Coro.ops_bind, herror, List.append_nil, hlength]

/-- Where the call raises: at one of its first two statements, at the selection of the recipes, or later. -/
theorem run_error {e : StatementError} (hrun : p.upsertCookbook.run index.exec s = (.error e, t)) :
    ((p.upsertCookbook.ops index.exec s).length ≤ 2 ∧ t.tables = s.tables) ∨
      ∃ s₁, s₁.tables = index.apply (p.writeCookbook (p.cookbookIn s.tables)) s.tables ∧
        index.possible (p.writeCookbook (p.cookbookIn s.tables)) s.tables = true ∧
        3 ≤ (p.upsertCookbook.ops index.exec s).length ∧
        (4 ≤ (p.upsertCookbook.ops index.exec s).length → s.tables.recipes.isSome) ∧
        (p.upsertCookbook.ops index.exec s).length ≤ (p.recipeStatements s.tables).length + 4 ∧
        index.Through s₁
          ((p.recipeStatements s.tables).take ((p.upsertCookbook.ops index.exec s).length - 4)) t := by
  rw [upsertCookbook] at hrun ⊢
  cases hselect : index.fails (.selectCookbook p.repoPath) s with
  | true =>
    obtain ⟨hfail, hops⟩ := bind_of_fails hselect
    rw [hfail] at hrun
    rw [hops, (Prod.mk.inj hrun).2]
    exact .inl ⟨by simp, rfl⟩
  | false =>
    obtain ⟨hgo, hops⟩ := bind_of_not_fails hselect
    rw [hgo] at hrun
    rw [hops]
    have htables : (index.exec (.selectCookbook p.repoPath) s).tables = s.tables := tables_exec hselect
    generalize index.exec (.selectCookbook p.repoPath) s = s₀ at hrun htables ⊢
    cases hwrite : index.fails (p.writeCookbook (p.cookbookIn s.tables)) s₀ with
    | true =>
      obtain ⟨hfail, hops⟩ := bind_of_fails hwrite
      rw [hfail] at hrun
      rw [hops, ← (Prod.mk.inj hrun).2]
      exact .inl ⟨by simp, htables⟩
    | false =>
      obtain ⟨hgo, hops⟩ := bind_of_not_fails hwrite
      rw [hgo] at hrun
      rw [hops]
      have htables₁ := tables_exec hwrite
      have hpossible := possible_of_not_fails hwrite
      rw [htables] at htables₁ hpossible
      generalize index.exec (p.writeCookbook (p.cookbookIn s.tables)) s₀ = s₁ at hrun htables₁ ⊢
      refine .inr ?_
      cases hrecipes : index.fails (.selectRecipes (p.cookbookId (p.cookbookIn s.tables))) s₁ with
      | true =>
        obtain ⟨hfail, hops⟩ := bind_of_fails hrecipes
        rw [hfail] at hrun
        rw [hops, ← (Prod.mk.inj hrun).2]
        exact ⟨s₁, htables₁, hpossible, by simp, by simp, by simp, .nil s₁⟩
      | false =>
        obtain ⟨hgo, hops⟩ := bind_of_not_fails hrecipes
        rw [hgo] at hrun
        rw [hops]
        have hsame : s₁.tables.recipes = s.tables.recipes := by
          rw [htables₁]
          exact recipes_writeCookbook _ _
        have hthere : s.tables.recipes.isSome = true := hsame ▸ possible_of_not_fails hrecipes
        have htables₂ : (index.exec (.selectRecipes (p.cookbookId (p.cookbookIn s.tables))) s₁).tables = s₁.tables :=
          tables_exec hrecipes
        generalize index.exec (.selectRecipes (p.cookbookId (p.cookbookIn s.tables))) s₁ = s₂ at hrun htables₂ ⊢
        rw [existingRecipes_congr hsame] at hrun ⊢
        obtain ⟨k, hk, hthrough, hlength⟩ := loops_error hrun
        refine ⟨s₂, htables₂.trans htables₁, hpossible, ?_⟩
        simp only [List.length_cons, hlength]
        exact ⟨by omega, fun _ => hthere, Nat.add_le_add_right hk 4, hthrough⟩

/-- In the current schema every call raises. -/
theorem raises_of_recipes_eq_none (h : s.tables.recipes = none) :
    (p.upsertCookbook.run index.exec s).1 = .error {} := by
  refine raises_of_rest fun hselect => raises_of_rest fun hwrite => raises_of_rest fun hrecipes => ?_
  have hthere := possible_of_not_fails hrecipes
  rw [tables_exec hwrite, tables_exec hselect] at hthere
  change ((index.apply (p.writeCookbook (p.cookbookIn s.tables)) s.tables).recipes).isSome = true at hthere
  rw [recipes_writeCookbook, h] at hthere
  cases hthere

/-- The route goes on, whatever has come of it. -/
theorem run_indexAfterReceive :
    p.indexAfterReceive.run index.exec s = (.ok (), (p.upsertCookbook.run index.exec s).2) := by
  rw [indexAfterReceive, Coro.run_bind, Coro.run_attempt]
  rfl

/-! ### The row of the cookbook -/

/-- The cookbook is in the index, under the name and owner it is pushed to. -/
def Indexed (p : Push) (t : Catalog) : Prop :=
  ∃ row, p.cookbookIn t = some row ∧ row.name = p.name ∧ row.ownerId = p.ownerId

theorem apply_writeCookbook_eq_iff {t : Catalog}
    (hpossible : index.possible (p.writeCookbook (p.cookbookIn t)) t = true) :
    index.apply (p.writeCookbook (p.cookbookIn t)) t = t ↔ p.Indexed t := by
  rw [Indexed]
  cases hrow : p.cookbookIn t with
  | none =>
    rw [hrow] at hpossible
    have hfree : t.cookbooks.get p.newCookbookId = none := Option.isNone_iff_eq_none.mp hpossible
    refine iff_of_false (fun h => ?_) fun ⟨row, hsome, _⟩ => by cases hsome
    have hlength := congrArg (fun t : Catalog => t.cookbooks.rows.length) h
    exact absurd ((Table.length_insert hfree).symm.trans hlength) (by omega)
  | some row =>
    have hmem : row ∈ t.cookbooks := List.mem_of_find?_eq_some hrow
    have hamend : index.apply (p.writeCookbook (some row)) t = t ↔
        t.cookbooks.amend row.id (CookbookRow.update p.name p.ownerId)
          (CookbookRow.key_update p.name p.ownerId) = t.cookbooks := by
      refine ⟨fun h => congrArg Catalog.cookbooks h, fun h => ?_⟩
      change { t with cookbooks := t.cookbooks.amend row.id (CookbookRow.update p.name p.ownerId) _ } = t
      rw [h]
    rw [hamend, Table.amend_eq_self_iff]
    constructor
    · intro h
      have hsame := h row hmem rfl
      exact ⟨row, rfl, (congrArg CookbookRow.name hsame).symm, (congrArg CookbookRow.ownerId hsame).symm⟩
    · rintro ⟨row', hrow', hname, howner⟩ r hr hkey
      obtain rfl := Option.some.inj hrow'
      obtain rfl := Table.eq_of_key_eq hr hmem hkey
      rw [CookbookRow.update, ← hname, ← howner]

/-! ### Recipes that are deleted -/

theorem of_lookup_existingRecipes {cookbookId name id : String} {t : Catalog}
    (h : (existingRecipes cookbookId t).lookup name = some id) :
    ∃ recipes, t.recipes = some recipes ∧ ∃ row ∈ recipes, row.name = name ∧ row.id = id := by
  rcases Dict.of_lookup_foldl_set h with ⟨row, hrow, hname, hid⟩ | hnil
  · have hmem := List.mem_of_mem_filter hrow
    cases hrecipes : t.recipes with
    | none =>
      rw [hrecipes] at hmem
      cases hmem
    | some recipes =>
      rw [hrecipes] at hmem
      exact ⟨recipes, rfl, row, hmem, hname, hid⟩
  · cases hnil

/-- No row has the id and the name. -/
def Gone (id name : String) (t : Catalog) : Prop :=
  ∀ recipes ∈ t.recipes, ∀ row ∈ recipes, ¬ (row.id = id ∧ row.name = name)

theorem gone_apply {id name : String} {op : IndexOp} {t : Catalog}
    (hop : ∀ row, op = .insertRecipe row → row.name ≠ name) (hpossible : index.possible op t = true)
    (h : Gone id name t) : Gone id name (index.apply op t) := by
  intro recipes hrecipes row hrow
  cases op with
  | selectCookbook | updateCookbook | insertCookbook | selectRecipes | commit => exact h recipes hrecipes row hrow
  | deleteRecipe id' =>
    obtain ⟨before, hbefore, rfl⟩ := Option.map_eq_some_iff.mp hrecipes
    exact h before hbefore row (Table.mem_erase.mp hrow).1
  | updateRecipe id' recipe =>
    obtain ⟨before, hbefore, rfl⟩ := Option.map_eq_some_iff.mp hrecipes
    obtain ⟨old, hold, rfl⟩ := (Table.mem_amend _).mp hrow
    have hnot := h before hbefore old hold
    split
    · exact hnot
    · exact hnot
  | insertRecipe new =>
    obtain ⟨before, hbefore, rfl⟩ := Option.map_eq_some_iff.mp hrecipes
    have hfree : before.get (key new) = none := by
      change (t.recipes.any fun r => (r.get new.id).isNone) = true at hpossible
      rw [hbefore] at hpossible
      exact Option.isNone_iff_eq_none.mp hpossible
    rcases (Table.mem_insert hfree).mp hrow with hold | rfl
    · exact h before hbefore row hold
    · exact fun hboth => hop row rfl hboth.2

theorem name_of_insert {cookbookId : String} {existing : Dict String String} {row : RecipeRow}
    (h : IndexOp.insertRecipe row ∈ p.deleteRemoved existing ++ p.upsertRecipes cookbookId existing) :
    row.name ∈ p.recipes.map (·.name) := by
  rcases List.mem_append.mp h with hdelete | hupsert
  · obtain ⟨name, -, hop⟩ := List.mem_map.mp hdelete
    cases hop
  · obtain ⟨i, hi, hop⟩ := List.mem_mapIdx.mp hupsert
    rw [upsertRecipe] at hop
    split at hop
    · cases hop
    · rw [← IndexOp.insertRecipe.inj hop]
      exact List.mem_map_of_mem (List.getElem_mem hi)

/-- A row that was deleted does not come back. -/
theorem recipes_ne_of_removed {cookbookId : String} {k : Nat}
    (hremoved : p.removed (existingRecipes cookbookId s.tables) ≠ []) (hk : k ≠ 0)
    (h : index.Through s ((p.deleteRemoved (existingRecipes cookbookId s.tables) ++
      p.upsertRecipes cookbookId (existingRecipes cookbookId s.tables)).take k) t) :
    t.tables.recipes ≠ s.tables.recipes := by
  obtain ⟨name, names, hnames⟩ := List.exists_cons_of_ne_nil hremoved
  obtain ⟨k, rfl⟩ := Nat.exists_eq_succ_of_ne_zero hk
  have hname : name ∈ p.removed (existingRecipes cookbookId s.tables) := hnames ▸ List.mem_cons_self
  rw [removed, (p.setOrder_perm _).mem_iff, List.mem_filter, decide_eq_true_iff] at hname
  obtain ⟨id, hid⟩ := Option.isSome_iff_exists.mp (Dict.lookup_isSome_iff.mpr hname.1)
  obtain ⟨recipes, hrecipes, row, hrow, hrowName, hrowId⟩ := of_lookup_existingRecipes hid
  have hinsert : ∀ op ∈ p.deleteRemoved (existingRecipes cookbookId s.tables) ++
      p.upsertRecipes cookbookId (existingRecipes cookbookId s.tables), ∀ row, op = .insertRecipe row →
      row.name ≠ name := by
    rintro op hop row rfl heq
    exact hname.2 (heq ▸ name_of_insert hop)
  rw [deleteRemoved, hnames, List.map_cons, List.cons_append, List.take_succ_cons, hid, Option.getD_some] at h
  cases h with
  | cons hok hrest =>
    have hgone : Gone id name (index.exec (.deleteRecipe id) s).tables := by
      rw [tables_exec hok]
      intro after hafter row' hrow' hboth
      obtain ⟨before, -, rfl⟩ := Option.map_eq_some_iff.mp hafter
      exact (Table.mem_erase.mp hrow').2 hboth.1
    have hend : Gone id name t.tables := by
      refine hrest.inv (fun op hop tables hpossible hbefore => gone_apply (hinsert op ?_) hpossible hbefore) hgone
      rw [deleteRemoved, hnames]
      exact List.mem_cons_of_mem _ (List.mem_of_mem_take hop)
    intro hsame
    exact hend recipes (hsame.trans hrecipes) row hrow ⟨hrowId, hrowName⟩

/-! ### Recipes that are inserted or updated -/

/-- The last of some recipes that is written to a row. -/
def lastFor (existing : Dict String String) (recipes : List ResolvedRecipe) (id : String) : Option ResolvedRecipe :=
  (recipes.filter fun recipe => existing.lookup recipe.name == some id).getLast?

/-- The recipes all have rows, and the last that is written to a row is what the row has. -/
def UpToDate (existing : Dict String String) (recipes : List ResolvedRecipe) (t : Catalog) : Prop :=
  (∀ recipe ∈ recipes, (existing.lookup recipe.name).isSome) ∧
    ∀ rows ∈ t.recipes, ∀ row ∈ rows, ∀ recipe ∈ lastFor existing recipes row.id, row.update recipe = row

def isInsert : IndexOp → Bool
  | .insertRecipe _ => true
  | _ => false

/-- How many recipes there are. -/
def recipeCount (t : Catalog) : Nat := t.recipes.elim 0 fun recipes => recipes.rows.length

theorem recipeCount_update (id : String) (recipe : ResolvedRecipe) (t : Catalog) :
    recipeCount (index.apply (.updateRecipe id recipe) t) = recipeCount t := by
  obtain ⟨cookbooks, _ | recipes⟩ := t
  · rfl
  · exact List.length_map _

theorem recipeCount_of_through {ops : List IndexOp} (h : index.Through s ops t)
    (hops : ∀ op ∈ ops, isInsert op = true ∨ ∃ id recipe, op = .updateRecipe id recipe) :
    recipeCount t.tables = recipeCount s.tables + ops.countP isInsert := by
  induction h with
  | nil s => rfl
  | @cons s t op ops hok hrest ih =>
    rw [ih fun op hop => hops op (List.mem_cons_of_mem _ hop), tables_exec hok, List.countP_cons, ← Nat.add_assoc,
      Nat.add_right_comm]
    congr 1
    have hpossible := possible_of_not_fails hok
    rcases hops op List.mem_cons_self with hinsert | ⟨id, recipe, rfl⟩
    · cases op with
      | insertRecipe new =>
        change (s.tables.recipes.any fun r => (r.get new.id).isNone) = true at hpossible
        cases hrecipes : s.tables.recipes with
        | none =>
          rw [hrecipes] at hpossible
          cases hpossible
        | some recipes =>
          rw [hrecipes] at hpossible
          have hfree : recipes.get (key new) = none := Option.isNone_iff_eq_none.mp hpossible
          have hmore := Table.length_insert hfree
          change recipeCount { s.tables with recipes := s.tables.recipes.map (·.insert new) } = _
          rw [recipeCount, recipeCount, hrecipes]
          exact hmore
      | _ => cases hinsert
    · exact recipeCount_update id recipe s.tables

theorem countP_upsert_eq_zero {cookbookId : String} {existing : Dict String String} {recipes : List ResolvedRecipe}
    (h : (recipes.mapIdx (p.upsertRecipe cookbookId existing)).countP isInsert = 0) :
    ∀ recipe ∈ recipes, (existing.lookup recipe.name).isSome := by
  intro recipe hrecipe
  obtain ⟨i, hi, rfl⟩ := List.mem_iff_getElem.mp hrecipe
  have hnot := List.countP_eq_zero.mp h _ (List.mem_mapIdx.mpr ⟨i, hi, rfl⟩)
  rw [upsertRecipe] at hnot
  cases hlookup : existing.lookup recipes[i].name with
  | some id => rfl
  | none =>
    rw [hlookup] at hnot
    exact absurd rfl hnot

/-- The statement for a recipe that has a row. -/
def rewriteRecipe (existing : Dict String String) (recipe : ResolvedRecipe) : IndexOp :=
  .updateRecipe ((existing.lookup recipe.name).getD "") recipe

theorem mapIdx_upsertRecipe {cookbookId : String} {existing : Dict String String} {recipes : List ResolvedRecipe}
    (h : ∀ recipe ∈ recipes, (existing.lookup recipe.name).isSome) :
    recipes.mapIdx (p.upsertRecipe cookbookId existing) = recipes.map (rewriteRecipe existing) := by
  apply List.ext_getElem
  · simp
  · intro i hi _
    rw [List.length_mapIdx] at hi
    obtain ⟨id, hid⟩ := Option.isSome_iff_exists.mp (h _ (List.getElem_mem hi))
    rw [List.getElem_mapIdx, List.getElem_map, upsertRecipe, rewriteRecipe, hid]
    rfl

theorem lastFor_concat {existing : Dict String String} {recipes : List ResolvedRecipe} {recipe : ResolvedRecipe}
    {id : String} (hid : existing.lookup recipe.name = some id) (id' : String) :
    lastFor existing (recipes ++ [recipe]) id' = if id' = id then some recipe else lastFor existing recipes id' := by
  rw [lastFor, List.filter_append, lastFor]
  have hlast : [recipe].filter (fun recipe => existing.lookup recipe.name == some id') =
      if id' = id then [recipe] else [] := by
    rw [List.filter_singleton, hid]
    by_cases h : id' = id
    · simp [h]
    · have hne : (some id == some id') = false := beq_eq_false_iff_ne.mpr fun heq => h (Option.some.inj heq).symm
      rw [if_neg h, hne, cond_false]
  rw [hlast]
  split
  · exact List.getLast?_concat
  · rw [List.append_nil]

/-- A row, once some recipes that have rows are written. -/
def rewritten (existing : Dict String String) (recipes : List ResolvedRecipe) (row : RecipeRow) : RecipeRow :=
  (lastFor existing recipes row.id).elim row fun recipe => row.update recipe

theorem rewritten_concat {existing : Dict String String} {recipes : List ResolvedRecipe} {recipe : ResolvedRecipe}
    {id : String} (hid : existing.lookup recipe.name = some id) (row : RecipeRow) :
    rewritten existing (recipes ++ [recipe]) row =
      if key (rewritten existing recipes row) = id then (rewritten existing recipes row).update recipe
      else rewritten existing recipes row := by
  have hkey : key (rewritten existing recipes row) = row.id := by
    rw [rewritten]
    cases lastFor existing recipes row.id <;> rfl
  rw [hkey, rewritten, lastFor_concat hid]
  split
  · rw [rewritten]
    cases lastFor existing recipes row.id <;> rfl
  · rfl

theorem rows_rewriteRecipe {existing : Dict String String} {recipes : List ResolvedRecipe}
    (h : ∀ recipe ∈ recipes, (existing.lookup recipe.name).isSome) (t : Catalog) :
    ((recipes.map (rewriteRecipe existing)).foldl (fun t op => index.apply op t) t).recipes.map Table.rows =
      t.recipes.map fun rows => rows.rows.map (rewritten existing recipes) := by
  induction recipes using List.reverseRec with
  | nil =>
    have hsame : rewritten existing [] = id := rfl
    simp only [hsame, List.map_id]
    rfl
  | append_singleton recipes recipe ih =>
    have hbefore := ih fun recipe hrecipe => h recipe (List.mem_append_left _ hrecipe)
    obtain ⟨id, hid⟩ := Option.isSome_iff_exists.mp (h recipe (List.mem_append_right _ List.mem_cons_self))
    rw [List.map_append, List.foldl_append]
    generalize (recipes.map (rewriteRecipe existing)).foldl (fun t op => index.apply op t) t = t' at hbefore ⊢
    have hop : rewriteRecipe existing recipe = .updateRecipe id recipe := by rw [rewriteRecipe, hid, Option.getD_some]
    rw [List.map_singleton, List.foldl_cons, List.foldl_nil, hop]
    have hafter : (index.apply (.updateRecipe id recipe) t').recipes.map Table.rows =
        (t'.recipes.map Table.rows).map fun rows =>
          rows.map fun row => if key row = id then row.update recipe else row := by
      obtain ⟨cookbooks, _ | table⟩ := t'
      · rfl
      · rfl
    rw [hafter, hbefore, Option.map_map]
    congr 1
    funext table
    rw [Function.comp_apply, List.map_map]
    congr 1
    funext row
    exact (rewritten_concat hid row).symm

theorem upsert_or {cookbookId : String} {existing : Dict String String} {recipes : List ResolvedRecipe}
    (op : IndexOp) (hop : op ∈ recipes.mapIdx (p.upsertRecipe cookbookId existing)) :
    isInsert op = true ∨ ∃ id recipe, op = .updateRecipe id recipe := by
  obtain ⟨i, hi, rfl⟩ := List.mem_mapIdx.mp hop
  rw [upsertRecipe]
  split
  · exact .inr ⟨_, _, rfl⟩
  · exact .inl rfl

theorem take_mapIdx {α β : Type} (f : Nat → α → β) (l : List α) (k : Nat) :
    (l.mapIdx f).take k = (l.take k).mapIdx f := by
  apply List.ext_getElem
  · simp
  · intro i hi hi'
    simp only [List.getElem_take, List.getElem_mapIdx]

theorem rewritten_eq_iff {existing : Dict String String} {recipes : List ResolvedRecipe}
    (table : Option (Table RecipeRow)) :
    (table.map fun rows => rows.rows.map (rewritten existing recipes)) = table.map Table.rows ↔
      ∀ rows ∈ table, ∀ row ∈ rows, ∀ recipe ∈ lastFor existing recipes row.id, row.update recipe = row := by
  rcases table with _ | rows
  · exact iff_of_true rfl fun rows hrows => by cases hrows
  · have hrow : ∀ row, rewritten existing recipes row = row ↔
        ∀ recipe ∈ lastFor existing recipes row.id, row.update recipe = row := by
      intro row
      rw [rewritten]
      cases lastFor existing recipes row.id <;> simp
    have hself : rows.rows.map (rewritten existing recipes) = rows.rows ↔
        ∀ row ∈ rows, rewritten existing recipes row = row := by
      conv_lhs => rhs; rw [← List.map_id rows.rows]
      exact List.map_inj_left
    simp only [Option.map_some, Option.some.injEq, Option.mem_def, forall_eq', hself, hrow]

theorem recipes_eq_iff {cookbookId : String} {k : Nat} {existing : Dict String String}
    (hexisting : existing = existingRecipes cookbookId s.tables) (hk : k ≠ 0)
    (h : index.Through s ((p.deleteRemoved existing ++ p.upsertRecipes cookbookId existing).take k) t) :
    t.tables.recipes = s.tables.recipes ↔
      p.removed existing = [] ∧ UpToDate existing (p.recipes.take k) s.tables := by
  by_cases hremoved : p.removed existing = []
  · have hops : (p.deleteRemoved existing ++ p.upsertRecipes cookbookId existing).take k =
        (p.recipes.take k).mapIdx (p.upsertRecipe cookbookId existing) := by
      rw [deleteRemoved, hremoved, List.map_nil, List.nil_append, upsertRecipes]
      exact take_mapIdx _ _ _
    rw [hops] at h
    have hrows : ∀ hpresent : ∀ recipe ∈ p.recipes.take k, (existing.lookup recipe.name).isSome,
        t.tables.recipes.map Table.rows =
          s.tables.recipes.map fun rows => rows.rows.map (rewritten existing (p.recipes.take k)) := by
      intro hpresent
      rw [h.tables_eq, mapIdx_upsertRecipe hpresent]
      exact rows_rewriteRecipe hpresent _
    rw [and_iff_right hremoved, UpToDate]
    constructor
    · intro heq
      have hcount := recipeCount_of_through h fun op hop => upsert_or op hop
      rw [recipeCount, recipeCount, heq] at hcount
      have hpresent := countP_upsert_eq_zero (Nat.left_eq_add.mp hcount)
      refine ⟨hpresent, (rewritten_eq_iff _).mp ?_⟩
      rw [← hrows hpresent, heq]
    · rintro ⟨hpresent, hlast⟩
      apply Option.map_injective Table.rows_injective
      rw [hrows hpresent]
      exact (rewritten_eq_iff _).mpr hlast
  · rw [hexisting] at h hremoved
    refine iff_of_false (recipes_ne_of_removed hremoved hk h) fun hboth => hremoved ?_
    rw [← hexisting]
    exact hboth.1

/-! ### A call that raises -/

/-- The statements before the `n`th write nothing that is not there. -/
def Harmless (p : Push) (t : Catalog) (n : Nat) : Prop :=
  n ≤ 2 ∨ (p.Indexed t ∧
    (n ≤ 4 ∨ (p.removed (existingRecipes (p.cookbookId (p.cookbookIn t)) t) = [] ∧
      UpToDate (existingRecipes (p.cookbookId (p.cookbookIn t)) t) (p.recipes.take (n - 4)) t)))

theorem cookbooks_through {removed : Dict String String} {cookbookId : String} {existing : Dict String String} {k : Nat}
    (h : index.Through s ((p.deleteRemoved removed ++ p.upsertRecipes cookbookId existing).take k) t) :
    t.tables.cookbooks = s.tables.cookbooks := by
  refine h.inv (I := fun tables => tables.cookbooks = s.tables.cookbooks) ?_ rfl
  intro op hop tables _ hsame
  rcases List.mem_append.mp (List.mem_of_mem_take hop) with hdelete | hupsert
  · obtain ⟨name, -, rfl⟩ := List.mem_map.mp hdelete
    exact hsame
  · obtain ⟨i, hi, rfl⟩ := List.mem_mapIdx.mp hupsert
    rw [upsertRecipe]
    split <;> exact hsame

theorem catalog_eq_iff {t t' : Catalog} : t = t' ↔ t.cookbooks = t'.cookbooks ∧ t.recipes = t'.recipes := by
  obtain ⟨cookbooks, recipes⟩ := t
  obtain ⟨cookbooks', recipes'⟩ := t'
  rw [Catalog.mk.injEq]

/-- Where a call by itself raises and leaves the index as it was. -/
theorem tables_eq_iff {e : StatementError} (hrun : p.upsertCookbook.run index.exec s = (.error e, t)) :
    t.tables = s.tables ↔ p.Harmless s.tables (p.upsertCookbook.ops index.exec s).length := by
  rw [Harmless]
  rcases run_error hrun with ⟨hle, hsame⟩ | ⟨s₁, hs₁, hpossible, hge, -, -, hthrough⟩
  · exact iff_of_true hsame (.inl hle)
  · generalize (p.upsertCookbook.ops index.exec s).length = n at hge hthrough ⊢
    rw [or_iff_right (Nat.not_le.mpr hge), recipeStatements] at *
    have hrecipes : s₁.tables.recipes = s.tables.recipes := by
      rw [hs₁]
      exact recipes_writeCookbook _ _
    have hcookbooks : t.tables.cookbooks = s.tables.cookbooks ↔ p.Indexed s.tables := by
      rw [cookbooks_through hthrough, ← apply_writeCookbook_eq_iff hpossible, hs₁, catalog_eq_iff,
        recipes_writeCookbook]
      exact (and_iff_left rfl).symm
    rw [catalog_eq_iff, hcookbooks]
    refine and_congr_right fun _ => ?_
    by_cases hn : n ≤ 4
    · rw [Nat.sub_eq_zero_of_le hn, List.take_zero] at hthrough
      cases hthrough
      exact iff_of_true hrecipes (.inl hn)
    · have hiff := recipes_eq_iff (existingRecipes_congr hrecipes.symm) (Nat.sub_ne_zero_of_lt (Nat.not_le.mp hn)) hthrough
      rw [or_iff_right hn, ← hrecipes, hiff, UpToDate, UpToDate, hrecipes]

/-- **Where a call raises, among others that commit when they like, the index is as it was before the call and
the next commit puts nothing else on the disk exactly where nothing was written that was not there.** -/
theorem failed_index_atomic_iff {c c' : OnDisk Catalog} {steps : List (IndexOp × OnDisk Catalog)} {e : StatementError}
    (hruns : (p.upsertCookbook.on OnDisk.live).Runs (OnDisk.exec index) OnDisk.Others c steps (.error e) c') :
    (c'.commit.live.tables = c.live.tables ∧ c'.commit.disk = c.live.tables) ↔
      p.Harmless c.live.tables steps.length := by
  obtain ⟨hrun, hlength⟩ := OnDisk.of_runs hruns
  rw [← hlength, ← tables_eq_iff hrun]
  exact and_self_iff

def aliceRow : CookbookRow where
  id := "cb_1"
  name := "kit"
  ownerId := "alice"
  createdAt := "2026-01-01T00:00:00+00:00"
  repoPath := some "/git/alice/kit.git"

def pushedKit : Push where
  name := "kit"
  ownerId := "alice"
  repoPath := "/git/alice/kit.git"
  recipes := []
  now := "2026-01-01T00:00:00+00:00"
  newCookbookId := "cb_1"
  newRecipeId _ := "rec_1"
  setOrder := id
  setOrder_perm := List.Perm.refl

/-- The current schema, with some cookbooks in it. -/
def currentSchema (cookbooks : Table CookbookRow) : OnDisk Catalog where
  live := { tables := { cookbooks := cookbooks, recipes := none } }
  disk := { cookbooks := cookbooks, recipes := none }

theorem pushedKit_runs (cookbooks : Table CookbookRow) :
    (pushedKit.upsertCookbook.on OnDisk.live).Runs (OnDisk.exec index) OnDisk.Others (currentSchema cookbooks)
      ((pushedKit.upsertCookbook.on OnDisk.live).trace (OnDisk.exec index) (currentSchema cookbooks))
      ((pushedKit.upsertCookbook.on OnDisk.live).run (OnDisk.exec index) (currentSchema cookbooks)).1
      ((pushedKit.upsertCookbook.on OnDisk.live).run (OnDisk.exec index) (currentSchema cookbooks)).2 :=
  Coro.runs_trace OnDisk.Others.refl _ _

/-- A second push raises at the selection of the recipes and leaves the row that is there. -/
theorem pushedKit_again :
    ∃ steps c', (pushedKit.upsertCookbook.on OnDisk.live).Runs (OnDisk.exec index) OnDisk.Others
        (currentSchema (Table.insert ∅ aliceRow)) steps (.error {}) c' ∧
      c'.commit.live.tables = (currentSchema (Table.insert ∅ aliceRow)).live.tables ∧
      c'.commit.disk = (currentSchema (Table.insert ∅ aliceRow)).live.tables := by
  have hruns := pushedKit_runs (Table.insert ∅ aliceRow)
  refine ⟨_, _, hruns, (failed_index_atomic_iff hruns).mpr (.inr ⟨?_, .inl ?_⟩)⟩
  · exact ⟨aliceRow, by decide, rfl, rfl⟩
  · decide

/-- The first push raises at the selection of the recipes, and the row it has inserted is committed by another. -/
theorem pushedKit_first :
    ¬ ∀ (p : Push) (c c' : OnDisk Catalog) (steps : List (IndexOp × OnDisk Catalog)) (e : StatementError),
      (p.upsertCookbook.on OnDisk.live).Runs (OnDisk.exec index) OnDisk.Others c steps (.error e) c' →
      c'.commit.live.tables = c.live.tables ∧ c'.commit.disk = c.live.tables := by
  intro h
  have hruns := pushedKit_runs ∅
  have hdisk := (h pushedKit _ _ _ _ hruns).2
  exact absurd (congrArg (fun t => t.cookbooks.rows.length) hdisk) (by decide)

end Push

end Git

end Krewhub
