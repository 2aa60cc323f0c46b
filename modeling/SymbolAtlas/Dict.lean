/-!
# Dictionaries

Finite maps from strings, kept as lists in ascending order of the keys. The order is part of the
type, so a dictionary is determined by what its keys map to.
-/

set_option autoImplicit false

namespace SymbolAtlas

/-- A finite map from strings. -/
structure Dict (α : Type) where
  /-- The keys with their values, in ascending order of the keys. -/
  toList : List (String × α)
  sorted : toList.Pairwise fun a b => a.1 < b.1
deriving DecidableEq

namespace Dict

variable {α β : Type}

/-- The dictionary without keys. -/
def empty : Dict α :=
  ⟨[], .nil⟩

instance : Inhabited (Dict α) :=
  ⟨empty⟩

/-- The value of a key. -/
def get? (d : Dict α) (key : String) : Option α :=
  d.toList.lookup key

/-- Whether a key has a value. -/
def contains (d : Dict α) (key : String) : Bool :=
  (d.get? key).isSome

/-- The keys in ascending order. -/
def keys (d : Dict α) : List String :=
  d.toList.map (·.1)

/-- The values in ascending order of their keys. -/
def values (d : Dict α) : List α :=
  d.toList.map (·.2)

/-- Sets the value of a key in an ascending list to what `f` makes of its present value. -/
def alterIn (key : String) (f : Option α → α) : List (String × α) → List (String × α)
  | [] => [(key, f none)]
  | (k, v) :: rest =>
    if key < k then (key, f none) :: (k, v) :: rest
    else if k = key then (k, f (some v)) :: rest
    else (k, v) :: alterIn key f rest

theorem mem_alterIn {key : String} {f : Option α → α} {entries : List (String × α)}
    {e : String × α} (h : e ∈ alterIn key f entries) : e.1 = key ∨ ∃ e' ∈ entries, e'.1 = e.1 := by
  induction entries with
  | nil => simp_all [alterIn]
  | cons head rest ih =>
    obtain ⟨k, v⟩ := head
    simp only [alterIn] at h
    split at h
    · rcases List.mem_cons.mp h with rfl | h
      · exact .inl rfl
      · exact .inr ⟨e, h, rfl⟩
    · split at h
      · rcases List.mem_cons.mp h with rfl | h
        · exact .inr ⟨(k, v), by simp, rfl⟩
        · exact .inr ⟨e, by simp [h], rfl⟩
      · rcases List.mem_cons.mp h with rfl | h
        · exact .inr ⟨(k, v), by simp, rfl⟩
        · rcases ih h with h | ⟨e', he', heq⟩
          · exact .inl h
          · exact .inr ⟨e', by simp [he'], heq⟩

theorem sorted_alterIn (key : String) (f : Option α → α) {entries : List (String × α)}
    (h : entries.Pairwise fun a b => a.1 < b.1) :
    (alterIn key f entries).Pairwise fun a b => a.1 < b.1 := by
  induction entries with
  | nil => simp [alterIn]
  | cons head rest ih =>
    obtain ⟨k, v⟩ := head
    obtain ⟨hhead, hrest⟩ := List.pairwise_cons.mp h
    simp only [alterIn]
    split
    · next hlt =>
      refine List.pairwise_cons.mpr ⟨fun e he => ?_, h⟩
      rcases List.mem_cons.mp he with rfl | he
      · exact hlt
      · exact String.lt_trans hlt (hhead e he)
    · next hlt =>
      split
      · exact List.pairwise_cons.mpr ⟨hhead, hrest⟩
      · next hne =>
        refine List.pairwise_cons.mpr ⟨fun e he => ?_, ih hrest⟩
        rcases mem_alterIn he with hkey | ⟨e', he', heq⟩
        · rw [hkey]
          have hle : k ≤ key := String.not_lt.mp hlt
          exact String.not_le.mp fun hge => hne (String.le_antisymm hle hge)
        · rw [← heq]
          exact hhead e' he'

/-- Sets the value of a key to what `f` makes of its present value. -/
def alter (d : Dict α) (key : String) (f : Option α → α) : Dict α :=
  ⟨alterIn key f d.toList, sorted_alterIn key f d.sorted⟩

/-- Sets the value of a key. -/
def insert (d : Dict α) (key : String) (value : α) : Dict α :=
  d.alter key fun _ => value

/-- Sets the value of a key that has none. -/
def insertNew (d : Dict α) (key : String) (value : α) : Dict α :=
  d.alter key fun present => present.getD value

/-- Adds an element at the end of the list under a key. -/
def append (d : Dict (List α)) (key : String) (value : α) : Dict (List α) :=
  d.alter key fun present => present.getD [] ++ [value]

end Dict

end SymbolAtlas
