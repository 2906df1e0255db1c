/-
  MemoryWriteAhead.Library.OrderedMap
  ───────────────────────────────────
  **MAPS THAT REMEMBER THE ORDER OF INSERTION.**

  The entries of a map, oldest first, with pairwise different keys.  Setting a
  key that is there replaces its value in place; a new key goes to the end.

    • `ext_get?` — the order of the keys and the lookups determine the map,
    • `get?_setAll` — what a sequence of assignments leaves,
    • `setAll_eq_self_iff` — when it leaves the map as it was.
-/
import Mathlib.Data.List.Nodup

namespace MemoryWriteAhead

variable {κ α β : Type} [DecidableEq κ]

/-! ## §1. The map and its operations. -/

/-- The value that the first entry of the key has. -/
def lookupEntry (k : κ) : List (κ × α) → Option α
  | [] => none
  | (key, value) :: entries => if key = k then some value else lookupEntry k entries

/-- The entries with the value of the key replaced in place, or a new entry at the end. -/
def setEntry (k : κ) (v : α) : List (κ × α) → List (κ × α)
  | [] => [(k, v)]
  | (key, value) :: entries =>
      if key = k then (k, v) :: entries else (key, value) :: setEntry k v entries

/-- Only a new key changes the order. -/
theorem setEntry_keys (k : κ) (v : α) (entries : List (κ × α)) :
    (setEntry k v entries).map Prod.fst
      = if k ∈ entries.map Prod.fst then entries.map Prod.fst
        else entries.map Prod.fst ++ [k] := by
  induction entries with
  | nil => rfl
  | cons entry entries ih =>
      obtain ⟨key, value⟩ := entry
      unfold setEntry
      by_cases hk : key = k
      · subst hk
        simp
      · rw [if_neg hk]
        simp only [List.map_cons, List.mem_cons, ih]
        split
        next hmem => rw [if_pos (.inr hmem)]
        next hmem => rw [if_neg (by simp [Ne.symm hk, hmem])]; rfl

/-- The entries, oldest first; that no key comes twice is part of the map. -/
structure OrderedMap (κ α : Type) where
  entries : List (κ × α)
  nodup : (entries.map Prod.fst).Nodup
  deriving DecidableEq

namespace OrderedMap

/-- The map without entries. -/
def empty : OrderedMap κ α := ⟨[], List.nodup_nil⟩

/-- The keys in the order in which they were inserted. -/
def keys (m : OrderedMap κ α) : List κ := m.entries.map Prod.fst

/-- The values in the order of their keys. -/
def values (m : OrderedMap κ α) : List α := m.entries.map Prod.snd

/-- The value of a key. -/
def get? (m : OrderedMap κ α) (k : κ) : Option α := lookupEntry k m.entries

/-- A key gets a value and keeps its place if it has one. -/
def set (m : OrderedMap κ α) (k : κ) (v : α) : OrderedMap κ α where
  entries := setEntry k v m.entries
  nodup := by
    rw [setEntry_keys]
    split
    next => exact m.nodup
    next hk =>
      refine List.nodup_append.mpr ⟨m.nodup, List.nodup_singleton k, ?_⟩
      rintro key hkey k' hk' rfl
      rw [List.mem_singleton.mp hk'] at hkey
      exact hk hkey

/-- The map without a key; set again, the key goes to the end. -/
def erase (m : OrderedMap κ α) (k : κ) : OrderedMap κ α where
  entries := m.entries.filter fun entry => decide (entry.1 ≠ k)
  nodup := m.nodup.sublist (List.filter_sublist.map Prod.fst)

/-- The map with `f` applied to every value. -/
def mapValues (f : α → β) (m : OrderedMap κ α) : OrderedMap κ β where
  entries := m.entries.map fun entry => (entry.1, f entry.2)
  nodup := by
    rw [List.map_map]
    exact m.nodup

/-- One assignment after the other. -/
def setAll (m : OrderedMap κ α) (assignments : List (κ × α)) : OrderedMap κ α :=
  assignments.foldl (fun m assignment => m.set assignment.1 assignment.2) m

/-! ## §2. Lookups. -/

omit [DecidableEq κ] in
theorem ext_entries {m m' : OrderedMap κ α} (h : m.entries = m'.entries) : m = m' := by
  cases m
  cases m'
  simp only at h
  subst h
  rfl

/-- A key has the value that it was given, and the others have theirs. -/
theorem get?_set (m : OrderedMap κ α) (k : κ) (v : α) (k' : κ) :
    (m.set k v).get? k' = if k = k' then some v else m.get? k' := by
  show lookupEntry k' (setEntry k v m.entries) = if k = k' then some v else lookupEntry k' m.entries
  induction m.entries with
  | nil => rfl
  | cons entry entries ih =>
      obtain ⟨key, value⟩ := entry
      unfold setEntry
      by_cases hk : key = k
      · subst hk
        rw [if_pos rfl]
        unfold lookupEntry
        split
        next => rfl
        next => rfl
      · rw [if_neg hk]
        unfold lookupEntry
        rw [ih]
        by_cases hk' : key = k'
        · subst hk'
          rw [if_pos rfl, if_pos rfl, if_neg (Ne.symm hk)]
        · rw [if_neg hk', if_neg hk']

/-- The keys after an assignment. -/
theorem keys_set (m : OrderedMap κ α) (k : κ) (v : α) :
    (m.set k v).keys = if k ∈ m.keys then m.keys else m.keys ++ [k] :=
  setEntry_keys k v m.entries

theorem lookupEntry_isSome_iff (k : κ) (entries : List (κ × α)) :
    (lookupEntry k entries).isSome ↔ k ∈ entries.map Prod.fst := by
  induction entries with
  | nil => simp [lookupEntry]
  | cons entry entries ih =>
      obtain ⟨key, value⟩ := entry
      unfold lookupEntry
      by_cases hk : key = k
      · simp [hk]
      · rw [if_neg hk, ih]
        simp [Ne.symm hk]

/-- A key has a value just when it is one of the keys. -/
theorem get?_isSome_iff (m : OrderedMap κ α) (k : κ) : (m.get? k).isSome ↔ k ∈ m.keys :=
  lookupEntry_isSome_iff k m.entries

/-- Where no key comes twice, an entry is what a lookup of its key finds. -/
theorem lookupEntry_eq_of_mem {entries : List (κ × α)} (hnodup : (entries.map Prod.fst).Nodup)
    {k : κ} {v : α} (h : (k, v) ∈ entries) : lookupEntry k entries = some v := by
  induction entries with
  | nil => cases h
  | cons entry entries ih =>
      obtain ⟨key, value⟩ := entry
      obtain ⟨hfresh, hrest⟩ := List.nodup_cons.mp hnodup
      unfold lookupEntry
      rcases List.mem_cons.mp h with heq | hmem
      · obtain ⟨rfl, rfl⟩ := Prod.mk.inj heq
        rw [if_pos rfl]
      · have hne : key ≠ k := by
          rintro rfl
          exact hfresh (List.mem_map.mpr ⟨_, hmem, rfl⟩)
        rw [if_neg hne]
        exact ih hrest hmem

/-- The order of the keys and the lookups determine a map. -/
theorem ext_get? {m m' : OrderedMap κ α} (hkeys : m.keys = m'.keys)
    (hget : ∀ k, m.get? k = m'.get? k) : m = m' := by
  refine ext_entries (List.ext_getElem? fun i => ?_)
  have hkey : (m.entries[i]?).map Prod.fst = (m'.entries[i]?).map Prod.fst := by
    rw [← List.getElem?_map, ← List.getElem?_map]
    exact congrArg (fun keys => keys[i]?) hkeys
  cases hentry : m.entries[i]? with
  | none =>
      rw [hentry] at hkey
      exact (Option.map_eq_none_iff.mp hkey.symm).symm
  | some entry =>
      obtain ⟨key, value⟩ := entry
      rw [hentry] at hkey
      obtain ⟨⟨key', value'⟩, hentry', hsame⟩ := Option.map_eq_some_iff.mp hkey.symm
      obtain rfl : key' = key := hsame
      have hvalue : m.get? key' = some value :=
        lookupEntry_eq_of_mem m.nodup (List.mem_of_getElem? hentry)
      have hvalue' : m'.get? key' = some value' :=
        lookupEntry_eq_of_mem m'.nodup (List.mem_of_getElem? hentry')
      rw [hget key', hvalue'] at hvalue
      rw [hentry', Option.some.inj hvalue]

/-! ## §3. Sequences of assignments. -/

/-- The value of the last assignment to the key. -/
def lastAssigned (k : κ) (assignments : List (κ × α)) : Option α :=
  assignments.foldl (fun last assignment => if assignment.1 = k then some assignment.2 else last)
    none

/-- The last assignment counts, and where there is none what was there before. -/
theorem foldl_lastAssigned (k : κ) (assignments : List (κ × α)) (last : Option α) :
    assignments.foldl (fun last assignment => if assignment.1 = k then some assignment.2 else last)
      last = (lastAssigned k assignments).or last := by
  unfold lastAssigned
  induction assignments generalizing last with
  | nil => rfl
  | cons assignment assignments ih =>
      rw [List.foldl_cons, List.foldl_cons, ih, ih (if assignment.1 = k then some assignment.2 else none)]
      split
      next => rw [Option.or_assoc, Option.some_or]
      next => rw [Option.or_none]

/-- What a sequence of assignments leaves of a key. -/
theorem get?_setAll (m : OrderedMap κ α) (assignments : List (κ × α)) (k : κ) :
    (m.setAll assignments).get? k = (lastAssigned k assignments).or (m.get? k) := by
  rw [← foldl_lastAssigned]
  unfold setAll
  induction assignments generalizing m with
  | nil => rfl
  | cons assignment assignments ih =>
      rw [List.foldl_cons, List.foldl_cons, ih, get?_set]

/-- Assignments to keys that are there leave the order. -/
theorem keys_setAll {m : OrderedMap κ α} {assignments : List (κ × α)}
    (h : ∀ assignment ∈ assignments, assignment.1 ∈ m.keys) :
    (m.setAll assignments).keys = m.keys := by
  unfold setAll
  induction assignments generalizing m with
  | nil => rfl
  | cons assignment assignments ih =>
      have hhead : (m.set assignment.1 assignment.2).keys = m.keys := by
        rw [keys_set, if_pos (h assignment (List.mem_cons_self ..))]
      rw [List.foldl_cons, ih, hhead]
      intro later hlater
      rw [hhead]
      exact h later (List.mem_cons_of_mem _ hlater)

theorem lastAssigned_isSome {k : κ} {assignments : List (κ × α)} :
    (lastAssigned k assignments).isSome ↔ k ∈ assignments.map Prod.fst := by
  induction assignments with
  | nil => simp [lastAssigned]
  | cons assignment assignments ih =>
      unfold lastAssigned
      rw [List.foldl_cons, foldl_lastAssigned, Option.isSome_or, Bool.or_eq_true, ih]
      by_cases hk : assignment.1 = k
      · simp [hk]
      · simp [hk, Ne.symm hk]

/-- **Assignments leave the map as it was** just when the last one of every key
repeats its value. -/
theorem setAll_eq_self_iff (m : OrderedMap κ α) (assignments : List (κ × α)) :
    m.setAll assignments = m
      ↔ ∀ k v, lastAssigned k assignments = some v → m.get? k = some v := by
  constructor
  · intro hsame k v hlast
    rw [← hsame, get?_setAll, hlast]
    rfl
  · intro hlast
    refine ext_get? (keys_setAll fun assignment hmem => ?_) fun k => ?_
    · obtain ⟨v, hv⟩ := Option.isSome_iff_exists.mp
        (lastAssigned_isSome.mpr (List.mem_map_of_mem hmem))
      exact (get?_isSome_iff m _).mp (by rw [hlast _ v hv]; rfl)
    · rw [get?_setAll]
      cases hk : lastAssigned k assignments with
      | none => rfl
      | some v => rw [hlast k v hk]; rfl

/-- Setting a key to the value that it has. -/
theorem set_eq_self_iff (m : OrderedMap κ α) (k : κ) (v : α) :
    m.set k v = m ↔ m.get? k = some v := by
  refine (m.setAll_eq_self_iff [(k, v)]).trans ⟨fun h => h k v ?_, fun h k' v' hlast => ?_⟩
  · unfold lastAssigned
    rw [List.foldl_cons, if_pos rfl]
    rfl
  · unfold lastAssigned at hlast
    rw [List.foldl_cons, List.foldl_nil] at hlast
    split at hlast
    next hk =>
      obtain rfl := Option.some.inj hlast
      rw [← hk]
      exact h
    next => cases hlast

/-! ## §4. Maps of values. -/

omit [DecidableEq κ] in
theorem values_mapValues (f : α → β) (m : OrderedMap κ α) :
    (m.mapValues f).values = m.values.map f := by
  show (m.entries.map _).map _ = (m.entries.map _).map f
  rw [List.map_map, List.map_map]
  rfl

omit [DecidableEq κ] in
theorem mapValues_eq_iff (f g : α → β) (m : OrderedMap κ α) :
    m.mapValues f = m.mapValues g ↔ ∀ v ∈ m.values, f v = g v := by
  constructor
  · intro h v hv
    obtain ⟨entry, hentry, rfl⟩ := List.mem_map.mp hv
    have hentries : m.entries.map (fun entry => (entry.1, f entry.2))
      = m.entries.map (fun entry => (entry.1, g entry.2)) := congrArg entries h
    exact (Prod.mk.inj (List.map_inj_left.mp hentries entry hentry)).2
  · intro h
    refine ext_entries (List.map_inj_left.mpr fun entry hentry => ?_)
    rw [h entry.2 (List.mem_map_of_mem hentry)]

omit [DecidableEq κ] in
theorem mapValues_congr_iff (f : α → β) (m m' : OrderedMap κ α) :
    m.mapValues f = m'.mapValues f
      ↔ m.entries.map (fun entry => (entry.1, f entry.2))
        = m'.entries.map (fun entry => (entry.1, f entry.2)) :=
  ⟨fun h => congrArg entries h, fun h => ext_entries h⟩

/-- A change of the values can be made before an assignment or after it. -/
theorem mapValues_set (f : α → β) (m : OrderedMap κ α) (k : κ) (v : α) :
    (m.set k v).mapValues f = (m.mapValues f).set k (f v) := by
  refine ext_entries ?_
  show (setEntry k v m.entries).map _ = setEntry k (f v) (m.entries.map _)
  induction m.entries with
  | nil => rfl
  | cons entry entries ih =>
      obtain ⟨key, value⟩ := entry
      rw [List.map_cons]
      unfold setEntry
      split
      next => rfl
      next => rw [List.map_cons, ih]

/-- The value of a key after a change of the values. -/
theorem get?_mapValues (f : α → β) (m : OrderedMap κ α) (k : κ) :
    (m.mapValues f).get? k = (m.get? k).map f := by
  show lookupEntry k (m.entries.map _) = (lookupEntry k m.entries).map f
  induction m.entries with
  | nil => rfl
  | cons entry entries ih =>
      obtain ⟨key, value⟩ := entry
      rw [List.map_cons]
      unfold lookupEntry
      split
      next => rfl
      next => exact ih

omit [DecidableEq κ] in
theorem mapValues_mapValues {γ : Type} (f : α → β) (g : β → γ) (m : OrderedMap κ α) :
    (m.mapValues f).mapValues g = m.mapValues (g ∘ f) := by
  refine ext_entries ?_
  show (m.entries.map _).map _ = _
  rw [List.map_map]
  rfl

end OrderedMap

end MemoryWriteAhead
