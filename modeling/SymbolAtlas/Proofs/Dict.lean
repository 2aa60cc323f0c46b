import SymbolAtlas.Dict

/-!
# What dictionaries answer

A dictionary is read by `get?` alone, and each way of changing one is described by what it answers
afterwards. The order of the keys is used here and nowhere else.
-/

set_option autoImplicit false

namespace SymbolAtlas.Dict

variable {α : Type}

theorem lookup_cons_eq_ite {κ : Type} [BEq κ] [LawfulBEq κ] [DecidableEq κ] (k' : κ) (v : α)
    (rest : List (κ × α)) (k : κ) :
    ((k', v) :: rest).lookup k = if k = k' then some v else rest.lookup k := by
  by_cases hk : k = k'
  · simp [hk]
  · have hbeq : (k == k') = false := beq_eq_false_iff_ne.mpr hk
    simp [List.lookup_cons, hk, hbeq]

theorem lookup_eq_none_of_lt {key : String} {entries : List (String × α)}
    (h : ∀ e ∈ entries, key < e.1) : entries.lookup key = none := by
  rw [List.lookup_eq_none_iff]
  intro e he
  rw [bne_iff_ne]
  intro heq
  have hlt := h e he
  rw [heq] at hlt
  exact String.lt_irrefl _ hlt

section

variable (d : Dict α) (key : String) (value : α) (k : String)

/-- Altering an entry changes what is found under its key, and nothing else. -/
theorem lookup_alterIn (f : Option α → α) {entries : List (String × α)}
    (h : entries.Pairwise fun a b => a.1 < b.1) (k : String) :
    (alterIn key f entries).lookup k =
      if k = key then some (f (entries.lookup key)) else entries.lookup k := by
  induction entries with
  | nil =>
    rw [alterIn, lookup_cons_eq_ite]
    rfl
  | cons head rest ih =>
    obtain ⟨k', v⟩ := head
    obtain ⟨hhead, hrest⟩ := List.pairwise_cons.mp h
    simp only [alterIn]
    split
    · next hlt =>
      have hnone : ((k', v) :: rest).lookup key = none := by
        apply lookup_eq_none_of_lt
        intro e he
        rcases List.mem_cons.mp he with rfl | he
        · exact hlt
        · exact String.lt_trans hlt (hhead e he)
      rw [hnone, lookup_cons_eq_ite]
    · split
      · next hkk =>
        subst hkk
        simp only [lookup_cons_eq_ite, if_true]
        by_cases hk : k = k'
        · simp [hk]
        · simp [hk]
      · next hne =>
        simp only [lookup_cons_eq_ite, ih hrest]
        have hne' : key ≠ k' := fun heq => hne heq.symm
        by_cases hk : k = k'
        · subst hk
          simp [hne]
        · simp [hk, hne']

theorem get?_alter (f : Option α → α) (k : String) :
    (d.alter key f).get? k = if k = key then some (f (d.get? key)) else d.get? k :=
  lookup_alterIn key f d.sorted k

@[simp] theorem get?_empty : (empty : Dict α).get? k = none := rfl

theorem get?_insert : (d.insert key value).get? k = if k = key then some value else d.get? k := by
  rw [insert, get?_alter]

theorem get?_insert_of_free {d : Dict α} {key : String} (hfree : d.get? key = none) (value : α)
    {k : String} {v : α} (h : d.get? k = some v) : (d.insert key value).get? k = some v := by
  rw [get?_insert, if_neg, h]
  rintro rfl
  rw [hfree] at h
  cases h

theorem get?_insertNew :
    (d.insertNew key value).get? k =
      if k = key then some ((d.get? key).getD value) else d.get? k := by
  rw [insertNew, get?_alter]

theorem get?_append (d : Dict (List α)) (key : String) (value : α) (k : String) :
    (d.append key value).get? k =
      if k = key then some ((d.get? key).getD [] ++ [value]) else d.get? k := by
  rw [append, get?_alter]

theorem mem_toList_iff (v : α) : (k, v) ∈ d.toList ↔ d.get? k = some v := by
  obtain ⟨entries, sorted⟩ := d
  simp only [get?]
  induction entries with
  | nil => simp
  | cons head rest ih =>
    obtain ⟨k', v'⟩ := head
    obtain ⟨hhead, hrest⟩ := List.pairwise_cons.mp sorted
    have ih := ih hrest
    rw [lookup_cons_eq_ite]
    by_cases hk : k = k'
    · subst hk
      have hnone : (k, v) ∉ rest := fun hmem => String.lt_irrefl k (hhead (k, v) hmem)
      simp [hnone, eq_comm]
    · simp [hk, ih]

theorem mem_keys_iff : k ∈ d.keys ↔ ∃ v, d.get? k = some v := by
  simp only [keys, List.mem_map, Prod.exists, exists_and_right, exists_eq_right, mem_toList_iff]

end

theorem mem_values_iff (d : Dict α) (v : α) : v ∈ d.values ↔ ∃ k, d.get? k = some v := by
  simp only [values, List.mem_map, Prod.exists, exists_eq_right, mem_toList_iff]

theorem nodup_keys (d : Dict α) : (d.toList.map (·.1)).Nodup := by
  rw [List.nodup_iff_pairwise_ne, List.pairwise_map]
  refine d.sorted.imp ?_
  intro x y hlt heq
  rw [heq] at hlt
  exact String.lt_irrefl _ hlt

theorem mem_of_lookup {entries : List (String × α)} {k : String} {v : α}
    (h : entries.lookup k = some v) : (k, v) ∈ entries := by
  obtain ⟨l₁, l₂, rfl, -⟩ := List.lookup_eq_some_iff.mp h
  simp

theorem exists_lookup_of_mem {entries : List (String × α)} {k : String} {v : α}
    (h : (k, v) ∈ entries) : ∃ v', entries.lookup k = some v' ∧ (k, v') ∈ entries := by
  cases hlookup : entries.lookup k with
  | none =>
    have hne := List.lookup_eq_none_iff.mp hlookup _ h
    simp at hne
  | some v' => exact ⟨v', rfl, mem_of_lookup hlookup⟩

/-- Of entries that are inserted in a row, the first under a key counts. -/
theorem get?_foldl_insertNew (entries : List (String × α)) (d : Dict α) (k : String) :
    (entries.foldl (fun d entry => d.insertNew entry.1 entry.2) d).get? k =
      (d.get? k).or (entries.lookup k) := by
  induction entries generalizing d with
  | nil => simp
  | cons entry rest ih =>
    obtain ⟨key, value⟩ := entry
    rw [List.foldl_cons, ih, get?_insertNew, lookup_cons_eq_ite]
    by_cases hkey : k = key
    · subst hkey
      rw [if_pos rfl, if_pos rfl]
      cases d.get? k <;> rfl
    · rw [if_neg hkey, if_neg hkey]

/-! ## Dictionaries of values with a property -/

/-- Every value has a property. -/
def All (P : α → Prop) (d : Dict α) : Prop :=
  ∀ k v, d.get? k = some v → P v

namespace All

variable {P Q : α → Prop} {d : Dict α}

theorem empty (P : α → Prop) : (Dict.empty : Dict α).All P := by
  intro k v h
  cases h

theorem mono (h : d.All P) (hPQ : ∀ v, P v → Q v) : d.All Q :=
  fun k v hv => hPQ v (h k v hv)

theorem insert (h : d.All P) (key : String) {value : α} (hvalue : P value) :
    (d.insert key value).All P := by
  intro k v hv
  rw [get?_insert] at hv
  split at hv
  · cases hv
    exact hvalue
  · exact h k v hv

theorem foldl_insertNew (h : d.All P) {entries : List (String × α)}
    (hentries : ∀ entry ∈ entries, P entry.2) :
    (entries.foldl (fun d entry => d.insertNew entry.1 entry.2) d).All P := by
  intro k v hv
  rw [get?_foldl_insertNew] at hv
  rcases Option.or_eq_some_iff.mp hv with hv | ⟨-, hv⟩
  · exact h k v hv
  · exact hentries (k, v) (mem_of_lookup hv)

theorem insertNew (h : d.All P) (key : String) {value : α} (hvalue : P value) :
    (d.insertNew key value).All P :=
  @foldl_insertNew α P d h [(key, value)] (by simpa using hvalue)

theorem append {d : Dict (List α)} (h : d.All fun vs => ∀ v ∈ vs, P v) (key : String) {value : α}
    (hvalue : P value) : (d.append key value).All fun vs => ∀ v ∈ vs, P v := by
  intro k vs hvs
  rw [get?_append] at hvs
  split at hvs
  · cases hvs
    intro v hv
    rcases List.mem_append.mp hv with hv | hv
    · cases hold : d.get? key with
      | none => simp [hold] at hv
      | some old => exact h key old hold v (by simpa [hold] using hv)
    · rw [List.mem_singleton.mp hv]
      exact hvalue
  · exact h k vs hvs

theorem of_mem_toList (h : d.All P) {entry : String × α} (hentry : entry ∈ d.toList) : P entry.2 :=
  h entry.1 entry.2 ((d.mem_toList_iff entry.1 entry.2).mp hentry)

end All

end SymbolAtlas.Dict
