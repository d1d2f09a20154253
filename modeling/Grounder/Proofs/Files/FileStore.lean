import Grounder.Files.FileStore
import Grounder.Proofs.Files.Path

/-!
# `Grounder.Proofs.Files.FileStore`: programs on a tree

A program that changes files and may fail turns a tree into another one and an answer (`runOn`). It
goes step by step (`runOn_bind`), and each step of a tree as a store is an operation on the tree.
-/

set_option autoImplicit false

namespace Grounder

namespace FileTree

variable {ε α β : Type} {tree : FileTree} {time path : String}

/-- What a program answers on a tree, and what becomes of the tree. -/
def runOn (program : ExceptT ε (StateM FileTree) α) (tree : FileTree) : Except ε α × FileTree :=
  program.run.run tree

@[simp]
theorem runOn_pure (a : α) :
    runOn (pure a : ExceptT ε (StateM FileTree) α) tree = (.ok a, tree) := rfl

/-- A step that looks at the tree, or changes it, and does not fail. -/
@[simp]
theorem runOn_lift (step : StateM FileTree α) :
    runOn (liftM step : ExceptT ε (StateM FileTree) α) tree = (.ok (step tree).1, (step tree).2) :=
  rfl

/-- A program goes on with what came before, unless this failed. -/
theorem runOn_bind (program : ExceptT ε (StateM FileTree) α)
    (next : α → ExceptT ε (StateM FileTree) β) :
    runOn (program >>= next) tree = match runOn program tree with
      | (.ok a, tree') => runOn (next a) tree'
      | (.error e, tree') => (.error e, tree') := by
  rw [runOn, ExceptT.run_bind, runOn, StateT.run_bind]
  rcases StateT.run program.run tree with ⟨_ | a, tree'⟩ <;> rfl

/-! ### The operations -/

@[simp]
theorem isPresent_storeAt :
    @FileStore.isPresent _ (storeAt time) path tree = (tree.isPresent path, tree) := rfl

@[simp]
theorem isFile_storeAt :
    @FileStore.isFile _ (storeAt time) path tree = (tree.isFile path, tree) := rfl

@[simp]
theorem readText?_storeAt :
    @FileStore.readText? _ (storeAt time) path tree = (tree.readText? path, tree) := rfl

@[simp]
theorem writeText_storeAt (s : String) :
    @FileStore.writeText _ (storeAt time) path s tree
      = attempt (fun tree => tree.write? path (.text s)) tree := rfl

@[simp]
theorem removeFile_storeAt :
    @FileStore.removeFile _ (storeAt time) path tree
      = attempt (fun tree => tree.removeFile? path) tree := rfl

@[simp]
theorem createDirectories_storeAt :
    @FileStore.createDirectories _ (storeAt time) path tree = tree.createDirectories path := rfl

@[simp]
theorem timestamp_storeAt : @FileStore.timestamp _ (storeAt time) tree = (time, tree) := rfl

end FileTree

end Grounder
