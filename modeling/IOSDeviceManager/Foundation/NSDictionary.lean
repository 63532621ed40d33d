import Mathlib.Data.List.Nodup

/-! # `NSDictionary` with string keys

A dictionary is the list of its entries in enumeration order (the order `allKeys` returns, which
Foundation leaves unspecified), with the distinctness of the keys as a field. -/

namespace IOSDeviceManager

variable {α : Type*}

/-- An `NSDictionary` with string keys. -/
structure NSDictionary (α : Type*) where
  /-- The entries in enumeration order. -/
  entries : List (String × α)
  /-- No key occurs twice. -/
  keysNodup : (entries.map Prod.fst).Nodup

namespace NSDictionary

/-- `-[NSDictionary allKeys]`. -/
def allKeys (d : NSDictionary α) : List String :=
  d.entries.map Prod.fst

/-- `-[NSDictionary objectForKey:]`. -/
def objectForKey (d : NSDictionary α) (key : String) : Option α :=
  d.entries.lookup key

/-- `-[NSDictionary count]`. -/
def count (d : NSDictionary α) : Nat :=
  d.entries.length

/-- `-[NSDictionary dictionary]`: no entries. -/
def empty : NSDictionary α where
  entries := []
  keysNodup := List.nodup_nil

@[simp] theorem objectForKey_empty (key : String) :
    (empty : NSDictionary α).objectForKey key = none :=
  rfl

theorem nodup_allKeys (d : NSDictionary α) : d.allKeys.Nodup :=
  d.keysNodup

@[simp] theorem length_allKeys (d : NSDictionary α) : d.allKeys.length = d.count := by
  simp [allKeys, count]

/-! ## Lookup -/

/-- Lookup in a non-empty list of entries. -/
theorem lookup_cons_eq_ite (key : String) (entry : String × α) (rest : List (String × α)) :
    (entry :: rest).lookup key = if key = entry.1 then some entry.2 else rest.lookup key := by
  obtain ⟨name, value⟩ := entry
  by_cases h : key = name
  · simp [h]
  · have hb : (key == name) = false := by simpa using h
    simp [List.lookup_cons, hb, h]

/-- A lookup fails exactly on the strings that are no key. -/
theorem lookup_eq_none_iff_notMem (entries : List (String × α)) (key : String) :
    entries.lookup key = none ↔ key ∉ entries.map Prod.fst := by
  induction entries with
  | nil => simp
  | cons entry rest ih =>
    rw [lookup_cons_eq_ite, List.map_cons, List.mem_cons, not_or, ← ih]
    by_cases h : key = entry.1 <;> simp [h]

/-- With distinct keys, looking a key up finds exactly its entry. -/
theorem lookup_eq_some_iff_mem {entries : List (String × α)}
    (hnd : (entries.map Prod.fst).Nodup) (key : String) (value : α) :
    entries.lookup key = some value ↔ (key, value) ∈ entries := by
  induction entries with
  | nil => simp
  | cons entry rest ih =>
    obtain ⟨name, v⟩ := entry
    obtain ⟨hnotin, hrest⟩ := List.nodup_cons.mp hnd
    rw [lookup_cons_eq_ite, List.mem_cons, ← ih hrest]
    by_cases h : key = name
    · subst h
      have hno : rest.lookup key = none := (lookup_eq_none_iff_notMem rest key).mpr hnotin
      simp [hno, eq_comm]
    · simp [h]

theorem objectForKey_eq_none_iff (d : NSDictionary α) (key : String) :
    d.objectForKey key = none ↔ key ∉ d.allKeys :=
  lookup_eq_none_iff_notMem d.entries key

theorem objectForKey_eq_some_iff (d : NSDictionary α) (key : String) (value : α) :
    d.objectForKey key = some value ↔ (key, value) ∈ d.entries :=
  lookup_eq_some_iff_mem d.keysNodup key value

/-- Every key of a dictionary has a value. -/
theorem exists_objectForKey {d : NSDictionary α} {key : String} (h : key ∈ d.allKeys) :
    ∃ value, d.objectForKey key = some value := by
  rw [← Option.ne_none_iff_exists']
  exact fun hnone => (d.objectForKey_eq_none_iff key).mp hnone h

/-! ## Update -/

/-- The entries after `key` is bound to `value`: in place when it is a key, else at the end. -/
def setEntry (key : String) (value : α) : List (String × α) → List (String × α)
  | [] => [(key, value)]
  | entry :: rest =>
      if entry.1 = key then (key, value) :: rest else entry :: setEntry key value rest

/-- Binding a key adds at most that key. -/
theorem map_fst_setEntry (key : String) (value : α) (entries : List (String × α)) :
    (setEntry key value entries).map Prod.fst =
      if key ∈ entries.map Prod.fst then entries.map Prod.fst
      else entries.map Prod.fst ++ [key] := by
  induction entries with
  | nil => simp [setEntry]
  | cons entry rest ih =>
    by_cases h : entry.1 = key
    · simp [setEntry, h]
    · have h' : key ≠ entry.1 := fun e => h e.symm
      by_cases hmem : key ∈ rest.map Prod.fst
      · rw [if_pos hmem] at ih
        rw [if_pos (by rw [List.map_cons]; exact List.mem_cons_of_mem _ hmem)]
        simp only [setEntry, h, if_false, List.map_cons, ih]
      · rw [if_neg hmem] at ih
        rw [if_neg (by rw [List.map_cons, List.mem_cons]; exact not_or.mpr ⟨h', hmem⟩)]
        simp only [setEntry, h, if_false, List.map_cons, ih, List.cons_append]

/-- `-[NSMutableDictionary setObject:forKey:]` on a mutable copy. -/
def setObject (d : NSDictionary α) (key : String) (value : α) : NSDictionary α where
  entries := setEntry key value d.entries
  keysNodup := by
    rw [map_fst_setEntry]
    split
    · exact d.keysNodup
    · rename_i h
      exact List.nodup_append.mpr ⟨d.keysNodup, by simp, by
        rintro a ha b hb rfl
        exact h (by rwa [List.mem_singleton.mp hb] at ha)⟩

theorem lookup_setEntry_self (key : String) (value : α) (entries : List (String × α)) :
    (setEntry key value entries).lookup key = some value := by
  induction entries with
  | nil => simp [setEntry]
  | cons entry rest ih =>
    by_cases h : entry.1 = key
    · simp [setEntry, h]
    · have h' : key ≠ entry.1 := fun e => h e.symm
      rw [setEntry, if_neg h, lookup_cons_eq_ite, if_neg h', ih]

theorem lookup_setEntry_of_ne {key other : String} (hne : other ≠ key) (value : α)
    (entries : List (String × α)) :
    (setEntry key value entries).lookup other = entries.lookup other := by
  induction entries with
  | nil => rw [setEntry, lookup_cons_eq_ite, if_neg hne]
  | cons entry rest ih =>
    by_cases h : entry.1 = key
    · have hoe : other ≠ entry.1 := fun e => hne (e.trans h)
      rw [setEntry, if_pos h, lookup_cons_eq_ite, if_neg hne, lookup_cons_eq_ite, if_neg hoe]
    · rw [setEntry, if_neg h, lookup_cons_eq_ite, lookup_cons_eq_ite, ih]

/-- The bound key has its new value. -/
@[simp] theorem objectForKey_setObject_self (d : NSDictionary α) (key : String) (value : α) :
    (d.setObject key value).objectForKey key = some value :=
  lookup_setEntry_self key value d.entries

/-- Every other key keeps its value. -/
theorem objectForKey_setObject_of_ne (d : NSDictionary α) {key other : String}
    (hne : other ≠ key) (value : α) :
    (d.setObject key value).objectForKey other = d.objectForKey other :=
  lookup_setEntry_of_ne hne value d.entries

/-! ## Dictionaries from keys and objects -/

/-- The entries that pair keys with objects, the first for a key that occurs more than once. -/
def pairEntries : List String → List α → List (String × α)
  | key :: keys, object :: objects =>
      (key, object) :: (pairEntries keys objects).filter fun entry => entry.1 ≠ key
  | _, _ => []

theorem nodup_pairEntries (keys : List String) (objects : List α) :
    ((pairEntries keys objects).map Prod.fst).Nodup := by
  induction keys generalizing objects with
  | nil => simp [pairEntries]
  | cons key keys ih =>
    cases objects with
    | nil => simp [pairEntries]
    | cons object objects =>
      rw [pairEntries, List.map_cons, List.nodup_cons]
      refine ⟨by simp, ?_⟩
      exact (ih objects).sublist (List.filter_sublist.map Prod.fst)

/-- `+[NSDictionary dictionaryWithObjects:forKeys:]`. -/
def dictionaryWithObjects (objects : List α) (keys : List String) : NSDictionary α where
  entries := pairEntries keys objects
  keysNodup := nodup_pairEntries keys objects

theorem lookup_filter_of_ne {key other : String} (hne : other ≠ key)
    (entries : List (String × α)) :
    (entries.filter fun entry => entry.1 ≠ key).lookup other = entries.lookup other := by
  induction entries with
  | nil => rfl
  | cons entry rest ih =>
    by_cases h : entry.1 = key
    · have hoe : other ≠ entry.1 := fun e => hne (e.trans h)
      rw [List.filter_cons_of_neg (by simp [h]), ih, lookup_cons_eq_ite, if_neg hoe]
    · rw [List.filter_cons_of_pos (by simp [h]), lookup_cons_eq_ite, lookup_cons_eq_ite, ih]

/-- A key is paired with the object at the position where it first occurs. -/
theorem objectForKey_dictionaryWithObjects (objects : List α) (keys : List String) (key : String) :
    (dictionaryWithObjects objects keys).objectForKey key =
      if key ∈ keys then objects[keys.idxOf key]? else none := by
  change (pairEntries keys objects).lookup key = _
  induction keys generalizing objects with
  | nil => simp [pairEntries]
  | cons first keys ih =>
    cases objects with
    | nil => simp [pairEntries]
    | cons object objects =>
      rw [pairEntries, lookup_cons_eq_ite]
      by_cases h : key = first
      · simp [h]
      · rw [if_neg h, lookup_filter_of_ne h, ih]
        simp [h, List.idxOf_cons_ne keys (Ne.symm h)]

end NSDictionary

end IOSDeviceManager
