/-!
# Tables

A table maps texts to values. It is a list of pairs in which a key occurs at most once as long
as only `insert` and `erase` change it; its order carries no meaning. The lemmas say what each
operation does to the view `get?`, and `DistinctKeys` is what `insert` and `erase` keep: under it
the view and the list say the same (`mem_iff_get?`).
-/

set_option autoImplicit false

namespace BoundedResources

/-- A finite map from texts, as a list of pairs. -/
abbrev Table (α : Type) := List (String × α)

namespace Table

variable {α : Type}

/-- The value under a key. -/
def get? : Table α → String → Option α
  | [], _ => none
  | (k, a) :: rest, key => if k = key then some a else get? rest key

/-- The table without a key. -/
def erase : Table α → String → Table α
  | [], _ => []
  | (k, a) :: rest, key => if k = key then erase rest key else (k, a) :: erase rest key

/-- The table with a value under a key, in place of the one it had. -/
def insert (t : Table α) (key : String) (a : α) : Table α := (key, a) :: t.erase key

@[simp] theorem get?_nil (key : String) : get? ([] : Table α) key = none := rfl

theorem get?_cons (k : String) (a : α) (t : Table α) (key : String) :
    get? ((k, a) :: t) key = if k = key then some a else get? t key := rfl

theorem get?_erase (t : Table α) (key other : String) :
    (t.erase key).get? other = if other = key then none else t.get? other := by
  induction t with
  | nil => simp [erase]
  | cons p rest ih =>
    obtain ⟨k, a⟩ := p
    by_cases hk : k = key
    · subst hk
      simp only [erase, if_pos, ih, get?_cons]
      by_cases ho : other = k
      · simp [ho]
      · simp [ho, Ne.symm ho]
    · simp only [erase, if_neg hk, get?_cons, ih]
      by_cases ho : k = other
      · subst ho; simp [hk]
      · simp [ho]

theorem get?_insert (t : Table α) (key other : String) (a : α) :
    (t.insert key a).get? other = if other = key then some a else t.get? other := by
  simp only [insert, get?_cons, get?_erase]
  by_cases h : other = key
  · simp [h]
  · simp [h, Ne.symm h]

/-! ## Distinct keys -/

/-- No key occurs twice. -/
def DistinctKeys (t : Table α) : Prop := (t.map Prod.fst).Nodup

theorem mem_of_get? {t : Table α} {key : String} {a : α} (h : t.get? key = some a) :
    (key, a) ∈ t := by
  induction t with
  | nil => simp at h
  | cons p rest ih =>
    obtain ⟨k, b⟩ := p
    rw [get?_cons] at h
    by_cases hk : k = key
    · subst hk
      simp only [if_pos, Option.some.injEq] at h
      subst h
      exact List.mem_cons_self
    · rw [if_neg hk] at h
      exact List.mem_cons_of_mem _ (ih h)

theorem get?_of_mem {t : Table α} (hd : t.DistinctKeys) {key : String} {a : α}
    (h : (key, a) ∈ t) : t.get? key = some a := by
  induction t with
  | nil => simp at h
  | cons p rest ih =>
    obtain ⟨k, b⟩ := p
    obtain ⟨hk, hrest⟩ := List.nodup_cons.mp hd
    rw [get?_cons]
    rcases List.mem_cons.mp h with h | h
    · cases h
      rw [if_pos rfl]
    · have hkey : key ∈ rest.map Prod.fst := List.mem_map_of_mem (f := Prod.fst) h
      have hne : k ≠ key := fun he => hk (he ▸ hkey)
      rw [if_neg hne, ih hrest h]

theorem mem_iff_get? {t : Table α} (hd : t.DistinctKeys) {key : String} {a : α} :
    (key, a) ∈ t ↔ t.get? key = some a :=
  ⟨get?_of_mem hd, mem_of_get?⟩

theorem get?_eq_none_iff {t : Table α} {key : String} :
    t.get? key = none ↔ key ∉ t.map Prod.fst := by
  induction t with
  | nil => simp
  | cons p rest ih =>
    obtain ⟨k, b⟩ := p
    rw [get?_cons, List.map_cons, List.mem_cons, not_or]
    by_cases hk : k = key
    · simp [hk]
    · simp only [if_neg hk, ih, Ne.symm hk, not_false_eq_true, true_and]

theorem erase_eq_filter (t : Table α) (key : String) :
    t.erase key = t.filter fun p => p.1 ≠ key := by
  induction t with
  | nil => rfl
  | cons p rest ih =>
    obtain ⟨k, b⟩ := p
    by_cases hk : k = key
    · simp [erase, hk, ih]
    · simp [erase, hk, ih]

theorem erase_eq_self {t : Table α} {key : String} (h : t.get? key = none) :
    t.erase key = t := by
  rw [erase_eq_filter, List.filter_eq_self]
  intro p hp
  have hk := get?_eq_none_iff.mp h
  simp only [decide_eq_true_eq]
  rintro rfl
  exact hk (List.mem_map_of_mem (f := Prod.fst) hp)

/-- Only the entry of the key goes. -/
theorem length_erase {t : Table α} (hd : t.DistinctKeys) {key : String} {a : α}
    (h : t.get? key = some a) : (t.erase key).length + 1 = t.length := by
  induction t with
  | nil => simp at h
  | cons p rest ih =>
    obtain ⟨k, b⟩ := p
    obtain ⟨hk, hrest⟩ := List.nodup_cons.mp hd
    rw [get?_cons] at h
    by_cases hkey : k = key
    · subst hkey
      rw [erase, if_pos rfl, erase_eq_self (get?_eq_none_iff.mpr hk), List.length_cons]
    · rw [if_neg hkey] at h
      rw [erase, if_neg hkey, List.length_cons, ih hrest h, List.length_cons]

theorem length_insert {t : Table α} {key : String} (h : t.get? key = none) (a : α) :
    (t.insert key a).length = t.length + 1 := by
  rw [insert, List.length_cons, erase_eq_self h]

/-- Of two values that are put under a key the second stays. -/
theorem insert_insert (t : Table α) (key : String) (a b : α) :
    (t.insert key a).insert key b = t.insert key b := by
  have hgone : (t.erase key).get? key = none := by rw [get?_erase, if_pos rfl]
  rw [insert, insert, insert, erase, if_pos rfl, erase_eq_self hgone]

theorem DistinctKeys.filter {t : Table α} (hd : t.DistinctKeys) (keep : String × α → Bool) :
    DistinctKeys (t.filter keep) :=
  (List.filter_sublist.map Prod.fst).nodup hd

theorem get?_filter {t : Table α} (hd : t.DistinctKeys) (keep : String × α → Bool)
    (key : String) :
    get? (t.filter keep) key = (t.get? key).filter fun a => keep (key, a) := by
  cases hf : get? (t.filter keep) key with
  | some a =>
    have hmem : (key, a) ∈ t ∧ keep (key, a) = true := List.mem_filter.mp (mem_of_get? hf)
    rw [get?_of_mem hd hmem.1, Option.filter, if_pos hmem.2]
  | none =>
    rw [get?_eq_none_iff] at hf
    cases ht : t.get? key with
    | none => rfl
    | some a =>
      have hdrop : ¬ keep (key, a) = true := fun hkeep => hf
        (List.mem_map_of_mem (f := Prod.fst) (List.mem_filter.mpr ⟨mem_of_get? ht, hkeep⟩))
      rw [Option.filter, if_neg hdrop]

theorem DistinctKeys.erase {t : Table α} (hd : t.DistinctKeys) (key : String) :
    (t.erase key).DistinctKeys := by
  rw [erase_eq_filter]
  exact hd.filter _

theorem DistinctKeys.insert {t : Table α} (hd : t.DistinctKeys) (key : String) (a : α) :
    (t.insert key a).DistinctKeys := by
  refine List.nodup_cons.mpr ⟨?_, hd.erase key⟩
  rw [← get?_eq_none_iff, get?_erase, if_pos rfl]

end Table

end BoundedResources
