/-!
Unique keys. A key that is taken is followed by a hyphen and the least number from two on
that makes it new.
-/

namespace CiTranslate

/-- The keys that are taken. -/
structure Keys where
  taken : List String := []
  deriving Repr

namespace Keys

/-- Keys of which some are not to be handed out. -/
def reserving (reserved : List String) : Keys := ⟨reserved⟩

def numbered (base : String) (n : Nat) : String := s!"{base}-{n}"

/-- The first numbered key from `n` on that is not taken, among the next `steps` and the one
after them. -/
def firstFree (taken : List String) (base : String) : Nat → Nat → String
  | 0, n => numbered base n
  | steps + 1, n =>
    if taken.contains (numbered base n) then firstFree taken base steps (n + 1)
    else numbered base n

/-- The key for a base. Of as many numbered keys as there are taken ones, and one more, one
is free. -/
def keyFor (base : String) (keys : Keys) : String :=
  if keys.taken.contains base then firstFree keys.taken base keys.taken.length 2 else base

/-- Hands out a key. -/
def allocate (base : String) (keys : Keys) : String × Keys :=
  let key := keys.keyFor base
  (key, ⟨key :: keys.taken⟩)

/-- Hands out keys in order. -/
def allocateAll : List String → Keys → List String × Keys
  | [], keys => ([], keys)
  | base :: bases, keys =>
    let (key, keys) := keys.allocate base
    let (rest, keys) := allocateAll bases keys
    (key :: rest, keys)

end Keys

end CiTranslate
