/-
A cache of the values used last.

Values are kept by key, the most recently used one first. A path is turned into
its key before anything is looked up, so that two spellings of one place share a
value; both that step and the loading of a value may fail, and a failure changes
nothing. When a value comes in and there is no room, the one that was used
longest ago leaves. Every value that leaves is reported, whichever way it goes.
-/

set_option autoImplicit false

namespace ManagedImage.Storage

/-- Values by key, most recently used first. -/
structure Cache (κ α : Type) where
  /-- Most values kept at a time. -/
  capacity : Nat
  /-- The values with their keys. -/
  entries : List (κ × α)

/-- What an operation did. -/
structure Effect (κ α ρ : Type) where
  /-- Its answer. -/
  answer : ρ
  /-- The cache afterwards. -/
  cache : Cache κ α
  /-- The keys that a value was loaded for, or tried to be. -/
  loaded : List κ
  /-- What left the cache. -/
  evicted : List (κ × α)

namespace Cache

variable {κ α ρ ε : Type}

/-- The capacity when none that makes sense is asked for. -/
def defaultCapacity : Nat := 16

/-- An empty cache; a capacity below one is the default. -/
def ofCapacity (n : Int) : Cache κ α := ⟨if n < 1 then defaultCapacity else n.toNat, []⟩

/-- The number of values. -/
def size (c : Cache κ α) : Nat := c.entries.length

variable [DecidableEq κ]

/-- The value of a key, without counting as a use. -/
def find? (c : Cache κ α) (key : κ) : Option α := c.entries.lookup key

/-- The entries of all other keys. -/
def others (c : Cache κ α) (key : κ) : List (κ × α) := c.entries.filter fun e => e.1 ≠ key

/-- The value of a key, and the cache after that use of it. -/
def use? (c : Cache κ α) (key : κ) : Option (α × Cache κ α) :=
  (c.find? key).map fun a => (a, { c with entries := (key, a) :: c.others key })

/-- The cache with a value put in front, and what had to leave for it. -/
def insert (c : Cache κ α) (key : κ) (a : α) : Cache κ α × List (κ × α) :=
  let entries := (key, a) :: c.others key
  ({ c with entries := entries.take c.capacity }, entries.drop c.capacity)

/-! ## Operations -/

/-- An operation that loads nothing and loses nothing. -/
def settled (answer : ρ) (c : Cache κ α) : Effect κ α ρ := ⟨answer, c, [], []⟩

/-- The value of a path: the cached one, or else one that is loaded and cached. -/
def fetch (key : ρ → Except ε κ) (load : κ → Except ε α) (c : Cache κ α) (path : ρ) :
    Effect κ α (Except ε α) :=
  match key path with
  | .error f => settled (.error f) c
  | .ok k =>
    match c.use? k with
    | some (a, c') => settled (.ok a) c'
    | none =>
      match load k with
      -- A load that failed is not kept.
      | .error f => ⟨.error f, c, [k], []⟩
      | .ok a =>
        let (c', gone) := c.insert k a
        ⟨.ok a, c', [k], gone⟩

/-- The cached value of a path, if there is one. -/
def get (key : ρ → Except ε κ) (c : Cache κ α) (path : ρ) : Effect κ α (Option α) :=
  match key path with
  | .error _ => settled none c
  | .ok k =>
    match c.use? k with
    | some (a, c') => settled (some a) c'
    | none => settled none c

/-- Takes a path out and says whether it was there. -/
def evict (key : ρ → Except ε κ) (c : Cache κ α) (path : ρ) : Effect κ α Bool :=
  match key path with
  | .error _ => settled false c
  | .ok k =>
    match c.find? k with
    | some a => ⟨true, { c with entries := c.others k }, [], [(k, a)]⟩
    | none => settled false c

/-- Takes everything out. -/
def purge (c : Cache κ α) : Effect κ α Unit := ⟨(), { c with entries := [] }, [], c.entries⟩

/-! ## Room -/

theorem size_insert_le (c : Cache κ α) (key : κ) (a : α) :
    (c.insert key a).1.size ≤ c.capacity := by
  simp only [insert, size, List.length_take]
  exact Nat.min_le_left _ _

/-- Nothing is lost on the way in: what is kept and what leaves are the entries there were. -/
theorem insert_append (c : Cache κ α) (key : κ) (a : α) :
    (c.insert key a).1.entries ++ (c.insert key a).2 = (key, a) :: c.others key := by
  simp [insert]

end Cache

end ManagedImage.Storage
