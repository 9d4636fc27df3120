import Krewhub.Base.Dict
import Krewhub.Base.Statements
import Krewhub.Base.Table

/-!
# The index after a push

`index_cookbook` writes what a push has changed: the row of the cookbook, found by the path of its repository
or inserted, and a row for each of its submodules, in `recipes`. The current schema has no such table.

Nothing rolls back. A statement that fails leaves what was written before it in the open transaction, and the
route that indexes goes on as if nothing had happened, so the next commit of anybody on the connection makes
it permanent.
-/

namespace Krewhub.Git

structure CookbookRow where
  id : String
  name : String
  ownerId : String
  createdAt : String
  repoPath : Option String
  deriving DecidableEq, Repr

structure RecipeRow where
  id : String
  name : String
  repoUrl : String
  defaultBranch : String
  createdBy : String
  createdAt : String
  cookbookId : String
  commitSha : String
  deriving DecidableEq, Repr

instance : Keyed CookbookRow := ⟨CookbookRow.id⟩

instance : Keyed RecipeRow := ⟨RecipeRow.id⟩

/-- The two tables, of which a migration drops the second. -/
structure Catalog where
  cookbooks : Table CookbookRow
  recipes : Option (Table RecipeRow)

structure ResolvedRecipe where
  name : String
  url : String
  branch : String
  commitSha : String
  deriving DecidableEq, Repr

/-! ### Statements -/

def CookbookRow.update (name ownerId : String) (row : CookbookRow) : CookbookRow :=
  { row with name := name, ownerId := ownerId }

def RecipeRow.update (recipe : ResolvedRecipe) (row : RecipeRow) : RecipeRow :=
  { row with repoUrl := recipe.url, defaultBranch := recipe.branch, commitSha := recipe.commitSha }

theorem CookbookRow.key_update (name ownerId : String) (row : CookbookRow) : key (row.update name ownerId) = key row :=
  rfl

theorem RecipeRow.key_update (recipe : ResolvedRecipe) (row : RecipeRow) : key (row.update recipe) = key row := rfl

inductive IndexOp where
  | selectCookbook (repoPath : String)
  | updateCookbook (id name ownerId : String)
  | insertCookbook (row : CookbookRow)
  | selectRecipes (cookbookId : String)
  | deleteRecipe (id : String)
  | updateRecipe (id : String) (recipe : ResolvedRecipe)
  | insertRecipe (row : RecipeRow)
  | commit

namespace IndexOp

def apply : IndexOp → Catalog → Catalog
  | .selectCookbook _, t | .selectRecipes _, t | .commit, t => t
  | .updateCookbook id name ownerId, t =>
    { t with cookbooks := t.cookbooks.amend id (CookbookRow.update name ownerId) (CookbookRow.key_update name ownerId) }
  | .insertCookbook row, t => { t with cookbooks := t.cookbooks.insert row }
  | .deleteRecipe id, t => { t with recipes := t.recipes.map (·.erase id) }
  | .updateRecipe id recipe, t =>
    { t with recipes := t.recipes.map fun r => r.amend id (RecipeRow.update recipe) (RecipeRow.key_update recipe) }
  | .insertRecipe row, t => { t with recipes := t.recipes.map (·.insert row) }

/-- The table is there, and a key that is inserted is not. -/
def possible : IndexOp → Catalog → Bool
  | .selectCookbook _, _ | .updateCookbook .., _ | .commit, _ => true
  | .insertCookbook row, t => (t.cookbooks.get row.id).isNone
  | .selectRecipes _, t | .deleteRecipe _, t | .updateRecipe .., t => t.recipes.isSome
  | .insertRecipe row, t => t.recipes.any fun r => (r.get row.id).isNone

def isCommit : IndexOp → Bool
  | .commit => true
  | _ => false

end IndexOp

def index : Statements Catalog IndexOp := ⟨IndexOp.apply, IndexOp.possible, IndexOp.isCommit⟩

abbrev Indexing (α : Type) := Coro (Faulty Catalog) IndexOp StatementError α

/-! ### The indexer -/

/-- A push, with the ids that are drawn while it is indexed and the order a set comes in. -/
structure Push where
  name : String
  ownerId : String
  repoPath : String
  recipes : List ResolvedRecipe
  now : String
  newCookbookId : String
  newRecipeId : Nat → String
  setOrder : List String → List String
  setOrder_perm : ∀ names, (setOrder names).Perm names

namespace Push

variable (p : Push)

/-- `SELECT * FROM cookbooks WHERE repo_path = ?`, of which the first row is fetched. -/
def cookbookIn (t : Catalog) : Option CookbookRow :=
  t.cookbooks.rows.find? fun row => row.repoPath == some p.repoPath

def cookbookId (row : Option CookbookRow) : String := (row.map (·.id)).getD p.newCookbookId

def writeCookbook : Option CookbookRow → IndexOp
  | some row => .updateCookbook row.id p.name p.ownerId
  | none => .insertCookbook
      { id := p.newCookbookId, name := p.name, ownerId := p.ownerId, createdAt := p.now
        repoPath := some p.repoPath }

/-- `{row["name"]: row["id"] for row in …}` over the recipes of a cookbook. -/
def existingRecipes (cookbookId : String) (t : Catalog) : Dict String String :=
  ((t.recipes.elim [] Table.rows).filter (·.cookbookId == cookbookId)).foldl
    (fun existing row => existing.set row.name row.id) []

/-- `set(existing_recipes.keys()) - incoming_names`. -/
def removed (existing : Dict String String) : List String :=
  p.setOrder ((existing.map (·.1)).filter fun name => name ∉ p.recipes.map (·.name))

def deleteRemoved (existing : Dict String String) : List IndexOp :=
  (p.removed existing).map fun name => .deleteRecipe ((existing.lookup name).getD "")

def upsertRecipe (cookbookId : String) (existing : Dict String String) (i : Nat) (recipe : ResolvedRecipe) :
    IndexOp :=
  match existing.lookup recipe.name with
  | some id => .updateRecipe id recipe
  | none => .insertRecipe
      { id := p.newRecipeId i, name := recipe.name, repoUrl := recipe.url, defaultBranch := recipe.branch
        createdBy := p.ownerId, createdAt := p.now, cookbookId := cookbookId, commitSha := recipe.commitSha }

def upsertRecipes (cookbookId : String) (existing : Dict String String) : List IndexOp :=
  p.recipes.mapIdx (p.upsertRecipe cookbookId existing)

/-- `_upsert_cookbook`, to where it has committed. -/
def upsertCookbook : Indexing CookbookRow := do
  let row ← index.execute (.selectCookbook p.repoPath) p.cookbookIn
  index.execute (p.writeCookbook row) fun _ => ()
  let existing ← index.execute (.selectRecipes (p.cookbookId row)) (existingRecipes (p.cookbookId row))
  index.executeAll (p.deleteRemoved existing)
  index.executeAll (p.upsertRecipes (p.cookbookId row) existing)
  index.execute .commit fun _ => ()
  return { id := p.cookbookId row, name := p.name, ownerId := p.ownerId
           createdAt := (row.map (·.createdAt)).getD p.now, repoPath := none }

/-- What `receive_pack` does about the index; an exception is logged. -/
def indexAfterReceive : Indexing Unit := do
  let _ ← p.upsertCookbook.attempt
  return ()

end Push

end Krewhub.Git
