import AccessGate.Ownership

/-!
# Changes of owners

A change gives a scope to a service or takes it from whoever owns it. Its answer is the owner that
the scope had until then.
-/

namespace AccessGate.Ownership

/-- What can be asked of the registry. -/
inductive Change
  | register (scope service : String)
  | unregister (scope : String)
deriving DecidableEq, Repr

/-- The scope that a change is about. -/
def Change.scope : Change → String
  | .register scope _ | .unregister scope => scope

/-- Makes a change: the answer, and the owners afterwards. -/
def change (o : Ownership) : Change → Option String × Ownership
  | .register scope service => (o.ownerOf scope, o.register scope service)
  | .unregister scope => (o.ownerOf scope, o.unregister scope)

/-- The owners after changes, made in turn. -/
def after (o : Ownership) (changes : List Change) : Ownership :=
  changes.foldl (fun o c => (o.change c).2) o

theorem after_append (o : Ownership) (xs ys : List Change) :
    o.after (xs ++ ys) = (o.after xs).after ys := List.foldl_append

end AccessGate.Ownership
