/-
This file holds finite maps from texts to values. A dictionary lists its
entries by strictly increasing key, and that is part of the type: two
dictionaries with the same entries are the same value, whatever the order in
which the entries were recorded, and a later entry for a key replaces the
earlier one.

The order of texts is the order of their code points, first difference first.
It is also the order in which sets of names are listed, so the insertion of a
name into an increasing list of names stands here as well.
-/

namespace StagedBuilder

/-! ### Increasing lists of names -/

/-- Adds a name at its place in an increasing list, unless the list holds it. -/
def insertName (name : String) : List String → List String
  | [] => [name]
  | first :: rest =>
    if name < first then name :: first :: rest
    else if first < name then first :: insertName name rest
    else first :: rest

/-- The names of a list, each once, in increasing order. -/
def sortedNames (names : List String) : List String :=
  names.foldl (fun sorted name => insertName name sorted) []

/-! ### Dictionaries -/

/-- A finite map from texts to values, listed by strictly increasing key. -/
structure Dictionary (Value : Type) where
  /-- The entries, by increasing key. -/
  entries : List (String × Value)
  /-- No key is repeated, and the smaller key comes first. -/
  increasing : entries.Pairwise (fun left right => left.1 < right.1)
deriving DecidableEq

namespace Dictionary

variable {Value : Type}

/-- Puts an entry at its place in a list of entries, instead of the entry of the same key. -/
def putEntry (key : String) (value : Value) : List (String × Value) → List (String × Value)
  | [] => [(key, value)]
  | (first, held) :: rest =>
    if key < first then (key, value) :: (first, held) :: rest
    else if first < key then (first, held) :: putEntry key value rest
    else (key, value) :: rest

/-- Every entry after an insertion is the new one or was there before. -/
theorem mem_putEntry {key : String} {value : Value} {entries : List (String × Value)}
    {entry : String × Value} (member : entry ∈ putEntry key value entries) :
    entry = (key, value) ∨ entry ∈ entries := by
  induction entries with
  | nil => simpa [putEntry] using member
  | cons first rest inductionHypothesis =>
    obtain ⟨firstKey, held⟩ := first
    rw [putEntry] at member
    split at member
    · simpa using member
    · split at member
      · rcases List.mem_cons.1 member with isFirst | inRest
        · exact Or.inr (isFirst ▸ List.mem_cons_self)
        · exact (inductionHypothesis inRest).imp id (List.mem_cons_of_mem _)
      · rcases List.mem_cons.1 member with isNew | inRest
        · exact Or.inl isNew
        · exact Or.inr (List.mem_cons_of_mem _ inRest)

/-- An insertion keeps the keys strictly increasing. -/
theorem increasing_putEntry (key : String) (value : Value) {entries : List (String × Value)}
    (increasing : entries.Pairwise (fun left right => left.1 < right.1)) :
    (putEntry key value entries).Pairwise (fun left right => left.1 < right.1) := by
  induction entries with
  | nil => simp [putEntry]
  | cons first rest inductionHypothesis =>
    obtain ⟨firstKey, held⟩ := first
    rw [List.pairwise_cons] at increasing
    obtain ⟨firstBelow, restIncreasing⟩ := increasing
    rw [putEntry]
    split
    · next below =>
      refine List.pairwise_cons.2 ⟨fun entry member => ?_,
        List.pairwise_cons.2 ⟨firstBelow, restIncreasing⟩⟩
      rcases List.mem_cons.1 member with isFirst | inRest
      · exact isFirst ▸ below
      · exact String.lt_trans below (firstBelow entry inRest)
    · next notBelow =>
      split
      · next above =>
        refine List.pairwise_cons.2 ⟨fun entry member => ?_,
          inductionHypothesis restIncreasing⟩
        rcases mem_putEntry member with isNew | inRest
        · exact isNew ▸ above
        · exact firstBelow entry inRest
      · next notAbove =>
        have same : firstKey = key :=
          String.le_antisymm (String.not_lt.1 notBelow) (String.not_lt.1 notAbove)
        exact List.pairwise_cons.2 ⟨same ▸ firstBelow, restIncreasing⟩

def empty : Dictionary Value := ⟨[], List.Pairwise.nil⟩

instance : Inhabited (Dictionary Value) := ⟨empty⟩

/-- Records an entry; an earlier entry of the same key is forgotten. -/
def insert (dictionary : Dictionary Value) (key : String) (value : Value) : Dictionary Value :=
  ⟨putEntry key value dictionary.entries, increasing_putEntry key value dictionary.increasing⟩

/-- Records the entries of a list one after another. -/
def ofList (entries : List (String × Value)) : Dictionary Value :=
  entries.foldl (fun dictionary entry => dictionary.insert entry.1 entry.2) empty

def get? (dictionary : Dictionary Value) (key : String) : Option Value :=
  dictionary.entries.lookup key

end Dictionary

end StagedBuilder
