set_option autoImplicit false

namespace CachedCalls

def distinct (ns : List String) : List String :=
  ns.foldl (fun seen n => if n ∈ seen then seen else seen ++ [n]) []

/-- Files something under its name, in place of what was there, keeping the names sorted. -/
def fileUnder {α : Type} (n : String) (a : α) : List (String × α) → List (String × α)
  | [] => [(n, a)]
  | (m, b) :: rest =>
    if n = m then (n, a) :: rest
    else if n < m then (n, a) :: (m, b) :: rest
    else (m, b) :: fileUnder n a rest

end CachedCalls
