import Criterion.Builder.Basic

/-!
# Assembling the finished tree

The arena is turned into a tree from a list of tasks. Visiting a branch puts off its assembly until
its children have been visited; assembling one takes it out of the arena, and takes the nodes that its
children have become. In the arena of a builder each branch is referred to once, so that nothing is
missed for having been taken. Each branch takes two tasks, so that twice the size of the arena is
enough for all of them.
-/

namespace Criterion

inductive Task where
  | visit (index : Nat)
  | assemble (index : Nat)
deriving DecidableEq, Repr

/-- The branches that have not been taken yet, and the nodes that have been built and not been taken. -/
structure Assembly where
  arena : Array Branch
  built : Array (Option Node)

namespace Assembly

/-- Takes the node that a child has become, the empty one if there is none, out of those built. -/
def takeChild (built : Array (Option Node)) : Option Child → Option Node × Array (Option Node)
  | none => (none, built)
  | some (.leaf literal) => (some (.leaf literal), built)
  | some (.branch index) =>
    (some ((built.getD index none).getD .empty), built.setIfInBounds index none)

/-- Takes the branch at an index and builds its node from those of its children. -/
def assemble (s : Assembly) (index : Nat) : Assembly :=
  let branch := s.arena.getD index {}
  let left := takeChild s.built branch.left
  let right := takeChild left.2 branch.right
  { arena := s.arena.setIfInBounds index {}
    built := right.2.setIfInBounds index (some (.branch branch.op left.1 right.1)) }

/-- The task that a child causes: none for a literal. -/
def childTasks : Option Child → List Task
  | some (.branch index) => [.visit index]
  | _ => []

/-- Does up to `fuel` tasks, the first one first. -/
def runTasks : (fuel : Nat) → List Task → Assembly → Assembly
  | 0, _, s => s
  | _ + 1, [], s => s
  | fuel + 1, .visit index :: tasks, s =>
    let branch := s.arena.getD index {}
    -- the tasks of both children come before the assembly of their branch
    runTasks fuel
      (childTasks branch.right ++ childTasks branch.left ++ .assemble index :: tasks) s
  | fuel + 1, .assemble index :: tasks, s => runTasks fuel tasks (s.assemble index)

end Assembly

def Builder.finish (b : Builder) : Node :=
  let unbuilt := Array.replicate b.arena.size none
  let done := Assembly.runTasks (2 * b.arena.size) [.visit 0] { arena := b.arena, built := unbuilt }
  (done.built.getD 0 none).getD .empty

end Criterion
