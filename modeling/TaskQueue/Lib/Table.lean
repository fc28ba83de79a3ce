import Mathlib.Data.List.AList

/-!
# Tables with one row per key

An association list whose keys are distinct by construction: the same small
interface serves an in-memory `Map` and a relation with a primary key.  `put`
is insert-or-replace, so "insert, on conflict update" is `put` as well.
-/

/-- Rows under distinct keys. -/
abbrev Table (κ ρ : Type*) := AList fun _ : κ => ρ

namespace Table

variable {κ ρ : Type*} [DecidableEq κ]

def get (t : Table κ ρ) (k : κ) : Option ρ := AList.lookup k t

def put (t : Table κ ρ) (k : κ) (r : ρ) : Table κ ρ := AList.insert k r t

def remove (t : Table κ ρ) (k : κ) : Table κ ρ := AList.erase k t

def size (t : Table κ ρ) : Nat := (AList.keys t).length

@[simp] theorem get_empty (k : κ) : get (∅ : Table κ ρ) k = none :=
  AList.lookup_empty k

@[simp] theorem get_put_self (t : Table κ ρ) (k : κ) (r : ρ) :
    (t.put k r).get k = some r :=
  AList.lookup_insert t

theorem get_put_of_ne (t : Table κ ρ) {k l : κ} (r : ρ) (h : l ≠ k) :
    (t.put k r).get l = t.get l :=
  AList.lookup_insert_ne h

theorem get_put (t : Table κ ρ) (k l : κ) (r : ρ) :
    (t.put k r).get l = if l = k then some r else t.get l := by
  split
  · rename_i h
    rw [h, get_put_self]
  · rename_i h
    exact get_put_of_ne t r h

@[simp] theorem get_remove_self (t : Table κ ρ) (k : κ) : (t.remove k).get k = none :=
  AList.lookup_erase k t

theorem get_remove_of_ne (t : Table κ ρ) {k l : κ} (h : l ≠ k) :
    (t.remove k).get l = t.get l :=
  AList.lookup_erase_ne h

/-- A row read after a write was written there, or was there before. -/
theorem get_put_eq_some {t : Table κ ρ} {k l : κ} {r s : ρ} :
    (t.put k r).get l = some s ↔ (l = k ∧ r = s) ∨ (l ≠ k ∧ t.get l = some s) := by
  by_cases h : l = k
  · rw [h, get_put_self]
    simp
  · rw [get_put_of_ne t r h]
    simp [h]

theorem get_remove_eq_some {t : Table κ ρ} {k l : κ} {s : ρ} :
    (t.remove k).get l = some s ↔ l ≠ k ∧ t.get l = some s := by
  by_cases h : l = k
  · rw [h, get_remove_self]
    simp
  · rw [get_remove_of_ne t h]
    simp [h]

omit [DecidableEq κ] in
@[simp] theorem size_empty : size (∅ : Table κ ρ) = 0 := rfl

theorem size_put_le (t : Table κ ρ) (k : κ) (r : ρ) : (t.put k r).size ≤ t.size + 1 := by
  unfold size put
  rw [AList.keys_insert, List.length_cons]
  have := List.length_erase_le (a := k) (l := AList.keys t)
  omega

theorem exists_get_of_one_lt_size {t : Table κ ρ} (h : 1 < t.size) (k : κ) :
    ∃ l r, l ≠ k ∧ t.get l = some r := by
  have hlength : 0 < ((AList.keys t).erase k).length := by
    have := List.le_length_erase (a := k) (l := AList.keys t)
    unfold size at h
    omega
  obtain ⟨l, hl⟩ := List.exists_mem_of_length_pos hlength
  obtain ⟨hne, hkey⟩ := (AList.keys_nodup t).mem_erase_iff.1 hl
  obtain ⟨r, hr⟩ := Option.isSome_iff_exists.1 (AList.lookup_isSome.2 (AList.mem_keys.2 hkey))
  exact ⟨l, r, hne, hr⟩

/-! ## Rows -/

def any (t : Table κ ρ) (p : ρ → Bool) : Bool := t.entries.any fun row => p row.2

theorem any_eq_true {t : Table κ ρ} {p : ρ → Bool} :
    t.any p = true ↔ ∃ k r, t.get k = some r ∧ p r = true := by
  unfold any
  rw [List.any_eq_true]
  constructor
  · rintro ⟨⟨k, r⟩, hmem, hp⟩
    exact ⟨k, r, AList.mem_lookup_iff.2 hmem, hp⟩
  · rintro ⟨k, r, hget, hp⟩
    exact ⟨⟨k, r⟩, AList.mem_lookup_iff.1 hget, hp⟩

/-- A row is one of the rows, and the others are those left when it is removed. -/
theorem perm_of_get {t : Table κ ρ} {k : κ} {r : ρ} (h : t.get k = some r) :
    t.entries.Perm (⟨k, r⟩ :: (t.remove k).entries) := by
  have hkey : k ∈ t.entries.keys := List.dlookup_isSome.1 (Option.isSome_iff_exists.2 ⟨r, h⟩)
  obtain ⟨b, before, after, hbefore, hentries, herase⟩ := List.exists_of_kerase hkey
  have hmem : (⟨k, b⟩ : Sigma fun _ : κ => ρ) ∈ t.entries := by simp [hentries]
  obtain rfl : b = r := Option.some.inj ((List.mem_dlookup t.nodupKeys hmem).symm.trans h)
  have hrest : (t.remove k).entries = before ++ after := herase
  rw [hrest, hentries]
  exact List.perm_middle

theorem entries_put (t : Table κ ρ) (k : κ) (r : ρ) :
    (t.put k r).entries = ⟨k, r⟩ :: (t.remove k).entries := rfl

theorem entries_remove_of_none {t : Table κ ρ} {k : κ} (h : t.get k = none) :
    (t.remove k).entries = t.entries := by
  apply List.kerase_of_notMem_keys
  intro hkey
  obtain ⟨r, hr⟩ := Option.isSome_iff_exists.1 (List.dlookup_isSome.2 hkey)
  rw [show t.get k = some r from hr] at h
  cases h

def total (t : Table κ Nat) : Nat := t.entries.foldr (fun row n => row.2 + n) 0

theorem total_remove (t : Table κ Nat) (k : κ) :
    (t.remove k).total + (t.get k).getD 0 = t.total := by
  cases h : t.get k with
  | none =>
      rw [total, entries_remove_of_none h, total, Option.getD_none, Nat.add_zero]
  | some r =>
      have hsum : t.total = r + (t.remove k).total := by
        rw [total, (perm_of_get h).foldr_eq' (fun row _ other _ m =>
          Nat.add_left_comm other.2 row.2 m), List.foldr_cons]
        rfl
      rw [Option.getD_some, hsum, Nat.add_comm]

theorem total_put (t : Table κ Nat) (k : κ) (n : Nat) :
    (t.put k n).total + (t.get k).getD 0 = t.total + n := by
  have hput : (t.put k n).total = n + (t.remove k).total := by
    rw [total, entries_put, List.foldr_cons]
    rfl
  have hremove := total_remove t k
  omega

/-! ## Mapping the rows -/

variable {τ : Type*}

def map (f : ρ → τ) (t : Table κ ρ) : Table κ τ :=
  ⟨t.entries.map (Sigma.map id fun _ => f), List.NodupKeys.map₂ (fun _ => f) _ t.nodupKeys⟩

theorem get_map (f : ρ → τ) (t : Table κ ρ) (k : κ) : (t.map f).get k = (t.get k).map f :=
  List.dlookup_map₂ k

theorem map_put (f : ρ → τ) (t : Table κ ρ) (k : κ) (r : ρ) :
    (t.put k r).map f = (t.map f).put k (f r) := by
  apply AList.ext
  have hentries : (t.put k r).entries.map (Sigma.map id fun _ => f) =
      (⟨k, f r⟩ : Sigma fun _ : κ => τ) ::
        List.kerase k (t.entries.map (Sigma.map id fun _ => f)) := by
    rw [entries_put, List.map_cons, List.kerase, List.eraseP_map]
    rfl
  exact hentries

end Table
