import MemoryArbiter.Table.Basic

/-! # Look-ups of ordered tables

Every operation of a table is described by what it does to `get?`; `Table.ext_get?` turns equal
look-ups into equal tables, and `Table.mem_entries` ties the listing of a table to its look-ups.
-/

namespace MemoryArbiter

variable {κ : Type} [Key κ] {β γ : Type}

/-! ### Entry lists -/

theorem lookupEntry_insertEntry (k k' : κ) (v : β) (es : List (κ × β)) :
    lookupEntry k' (insertEntry k v es) = if k = k' then some v else lookupEntry k' es := by
  induction es with
  | nil => simp [insertEntry, lookupEntry]
  | cons hd tl ih =>
    obtain ⟨k₁, v₁⟩ := hd
    simp only [insertEntry]
    split
    · simp [lookupEntry]
    · split
      · next hgt =>
        simp only [lookupEntry, ih]
        by_cases h₁ : k₁ = k'
        · have hne : k ≠ k' := fun e => Key.ne_of_lt hgt (h₁.trans e.symm)
          simp [h₁, hne]
        · simp [h₁]
      · next hnlt hngt =>
        have hk : k = k₁ := Key.connected hnlt hngt
        subst hk
        by_cases h : k = k' <;> simp [lookupEntry, h]

theorem lookupEntry_eraseEntry (k k' : κ) (es : List (κ × β)) :
    lookupEntry k' (eraseEntry k es) = if k = k' then none else lookupEntry k' es := by
  induction es with
  | nil => simp [eraseEntry, lookupEntry]
  | cons hd tl ih =>
    obtain ⟨k₁, v₁⟩ := hd
    have ih' : lookupEntry k' (List.filter (fun e => decide (e.1 ≠ k)) tl)
        = if k = k' then none else lookupEntry k' tl := ih
    by_cases h₁ : k₁ = k
    · subst h₁
      by_cases h : k₁ = k' <;> simp_all [eraseEntry, lookupEntry]
    · by_cases h₂ : k₁ = k'
      · subst h₂
        simp [eraseEntry, lookupEntry, h₁, Ne.symm h₁]
      · by_cases h : k = k' <;> simp_all [eraseEntry, lookupEntry]

theorem lookupEntry_mapEntry (f : β → γ) (k : κ) (es : List (κ × β)) :
    lookupEntry k (es.map fun e => (e.1, f e.2)) = (lookupEntry k es).map f := by
  induction es with
  | nil => rfl
  | cons hd tl ih =>
    obtain ⟨k₁, v₁⟩ := hd
    by_cases h : k₁ = k <;> simp [lookupEntry, h, ih]

theorem lookupEntry_eq_none {k : κ} {es : List (κ × β)} (h : ∀ e ∈ es, k < e.1) :
    lookupEntry k es = none := by
  induction es with
  | nil => rfl
  | cons hd tl ih =>
    have hne : hd.1 ≠ k := fun e => Key.ne_of_lt (h hd (List.mem_cons_self ..)) e.symm
    simp only [lookupEntry, if_neg hne]
    exact ih fun e he => h e (List.mem_cons_of_mem _ he)

theorem Ascending.mem_iff_lookupEntry {es : List (κ × β)} (h : Ascending es) {k : κ} {v : β} :
    (k, v) ∈ es ↔ lookupEntry k es = some v := by
  induction es with
  | nil => simp [lookupEntry]
  | cons hd tl ih =>
    obtain ⟨k₁, v₁⟩ := hd
    obtain ⟨hhd, htl⟩ := List.pairwise_cons.mp h
    by_cases hk : k₁ = k
    · subst hk
      have hno : (k₁, v) ∉ tl := fun hm => Key.irrefl k₁ (hhd _ hm)
      simp [lookupEntry, hno, eq_comm]
    · have hne : k ≠ k₁ := fun e => hk e.symm
      simp [lookupEntry, hk, hne, ih htl]

theorem Ascending.ext_lookupEntry {es fs : List (κ × β)} (he : Ascending es) (hf : Ascending fs)
    (h : ∀ k, lookupEntry k es = lookupEntry k fs) : es = fs := by
  induction es generalizing fs with
  | nil =>
    cases fs with
    | nil => rfl
    | cons hd tl =>
      have := h hd.1
      simp [lookupEntry] at this
  | cons hd tl ih =>
    obtain ⟨k, v⟩ := hd
    obtain ⟨hhd, htl⟩ := List.pairwise_cons.mp he
    cases fs with
    | nil =>
      have := h k
      simp [lookupEntry] at this
    | cons hd' tl' =>
      obtain ⟨k', v'⟩ := hd'
      obtain ⟨hhd', htl'⟩ := List.pairwise_cons.mp hf
      have hkk : k = k' := by
        refine Key.connected (fun hlt => ?_) (fun hgt => ?_)
        · have hn : lookupEntry k ((k', v') :: tl') = none := by
            refine lookupEntry_eq_none fun e hm => ?_
            rcases List.mem_cons.mp hm with rfl | hm
            · exact hlt
            · exact Key.trans hlt (hhd' e hm)
          have hk := h k
          rw [hn] at hk
          simp [lookupEntry] at hk
        · have hn : lookupEntry k' ((k, v) :: tl) = none := by
            refine lookupEntry_eq_none fun e hm => ?_
            rcases List.mem_cons.mp hm with rfl | hm
            · exact hgt
            · exact Key.trans hgt (hhd e hm)
          have hk := h k'
          rw [hn] at hk
          simp [lookupEntry] at hk
      subst hkk
      have hv : v = v' := by simpa [lookupEntry] using h k
      subst hv
      refine congrArg _ (ih htl htl' fun j => ?_)
      by_cases hj : k = j
      · subst hj
        rw [lookupEntry_eq_none hhd, lookupEntry_eq_none hhd']
      · simpa [lookupEntry, hj] using h j

theorem eraseEntry_eq_self {k : κ} {es : List (κ × β)} (h : ∀ e ∈ es, k < e.1) :
    eraseEntry k es = es :=
  List.filter_eq_self.mpr fun e he => by simpa using (Key.ne_of_lt (h e he)).symm

/-! ### Tables -/

namespace Table

theorem ext_get? {s t : Table κ β} (h : ∀ k, s.get? k = t.get? k) : s = t := by
  obtain ⟨es, hs⟩ := s
  obtain ⟨fs, ht⟩ := t
  have : es = fs := hs.ext_lookupEntry ht h
  subst this
  rfl

@[simp] theorem get?_empty (k : κ) : (∅ : Table κ β).get? k = none := rfl

theorem get?_insert (t : Table κ β) (k k' : κ) (v : β) :
    (t.insert k v).get? k' = if k = k' then some v else t.get? k' :=
  lookupEntry_insertEntry k k' v t.entries

@[simp] theorem get?_insert_self (t : Table κ β) (k : κ) (v : β) :
    (t.insert k v).get? k = some v := by
  simp [get?_insert]

theorem get?_erase (t : Table κ β) (k k' : κ) :
    (t.erase k).get? k' = if k = k' then none else t.get? k' :=
  lookupEntry_eraseEntry k k' t.entries

@[simp] theorem get?_erase_self (t : Table κ β) (k : κ) : (t.erase k).get? k = none := by
  simp [get?_erase]

@[simp] theorem get?_map (t : Table κ β) (f : β → γ) (k : κ) :
    (t.map f).get? k = (t.get? k).map f :=
  lookupEntry_mapEntry f k t.entries

theorem get?_adjust (t : Table κ β) (k k' : κ) (f : β → β) :
    (t.adjust k f).get? k' = if k = k' then (t.get? k').map f else t.get? k' := by
  unfold adjust
  by_cases h : k = k'
  · subst h
    cases hk : t.get? k <;> simp [hk]
  · cases hk : t.get? k <;> simp [get?_insert, h]

theorem mem_entries {t : Table κ β} {k : κ} {v : β} :
    (k, v) ∈ t.entries ↔ t.get? k = some v :=
  t.ascending.mem_iff_lookupEntry

theorem mem_keys {t : Table κ β} {k : κ} : k ∈ t.keys ↔ (t.get? k).isSome := by
  rw [keys, List.mem_map, Option.isSome_iff_exists]
  exact ⟨fun ⟨⟨_, v⟩, hm, he⟩ => ⟨v, mem_entries.mp (he ▸ hm)⟩,
    fun ⟨v, hv⟩ => ⟨(k, v), mem_entries.mpr hv, rfl⟩⟩

theorem mem_values {t : Table κ β} {v : β} : v ∈ t.values ↔ ∃ k, t.get? k = some v := by
  rw [values, List.mem_map]
  exact ⟨fun ⟨⟨k, _⟩, hm, he⟩ => ⟨k, mem_entries.mp (he ▸ hm)⟩,
    fun ⟨k, hk⟩ => ⟨(k, v), mem_entries.mpr hk, rfl⟩⟩

theorem contains_iff {t : Table κ β} {k : κ} : t.contains k = true ↔ ∃ v, t.get? k = some v :=
  Option.isSome_iff_exists

theorem keys_ascending (t : Table κ β) : t.keys.Pairwise (· < ·) :=
  List.pairwise_map.mpr t.ascending

theorem keys_nodup (t : Table κ β) : t.keys.Nodup :=
  t.keys_ascending.imp Key.ne_of_lt

@[simp] theorem keys_map (t : Table κ β) (f : β → γ) : (t.map f).keys = t.keys := by
  simp [keys, map]

/-- Tables with the same keys list them alike. -/
theorem keys_eq_of_isSome {s : Table κ β} {t : Table κ γ}
    (h : ∀ k, (s.get? k).isSome = (t.get? k).isSome) : s.keys = t.keys := by
  have hmap : s.map (fun _ => ()) = t.map (fun _ => ()) := by
    refine ext_get? fun k => ?_
    have hk := h k
    cases hs : s.get? k <;> cases ht : t.get? k <;> simp_all
  rw [← keys_map s fun _ => (), hmap, keys_map]

theorem adjust_insert_self (t : Table κ β) (k : κ) (v : β) (f : β → β) :
    (t.insert k v).adjust k f = t.insert k (f v) := by
  refine ext_get? fun j => ?_
  rw [get?_adjust, get?_insert, get?_insert]
  by_cases h : k = j <;> simp [h]

theorem insert_insert (t : Table κ β) (k : κ) (v w : β) :
    (t.insert k v).insert k w = t.insert k w := by
  refine ext_get? fun j => ?_
  rw [get?_insert, get?_insert, get?_insert]
  by_cases h : k = j <;> simp [h]

theorem isEmpty_iff {t : Table κ β} : t.isEmpty = true ↔ ∀ k, t.get? k = none := by
  constructor
  · intro h k
    simp only [isEmpty, List.isEmpty_iff] at h
    simp [get?, h, lookupEntry]
  · intro h
    have : t = ∅ := ext_get? h
    subst this
    rfl

theorem size_eq_length_keys (t : Table κ β) : t.size = t.keys.length := by
  simp [size, keys]

end Table

namespace IdSet

theorem mem_iff {s : IdSet} {id : Int} : id ∈ s ↔ s.get? id = some () := by
  show s.contains id = true ↔ _
  rw [Table.contains_iff]
  exact ⟨fun ⟨(), h⟩ => h, fun h => ⟨(), h⟩⟩

theorem mem_toList {s : IdSet} {id : Int} : id ∈ s.toList ↔ id ∈ s := by
  rw [toList, Table.mem_keys]
  exact Iff.rfl

@[simp] theorem not_mem_empty (id : Int) : id ∉ (∅ : IdSet) := by
  simp [mem_iff]

theorem mem_insert {s : IdSet} {a id : Int} : id ∈ s.insert a ↔ id = a ∨ id ∈ s := by
  rw [mem_iff, mem_iff, insert, Table.get?_insert]
  by_cases h : a = id
  · simp [h]
  · simp [h, Ne.symm h]

theorem mem_erase {s : IdSet} {a id : Int} : id ∈ s.erase a ↔ id ≠ a ∧ id ∈ s := by
  rw [mem_iff, mem_iff, Table.get?_erase]
  by_cases h : a = id
  · simp [h]
  · simp [h, Ne.symm h]

theorem isEmpty_iff {s : IdSet} : s.isEmpty = true ↔ ∀ id, id ∉ s := by
  rw [Table.isEmpty_iff]
  refine forall_congr' fun id => ?_
  rw [mem_iff]
  cases s.get? id <;> simp

theorem exists_mem_of_not_isEmpty {s : IdSet} (h : ¬ s.isEmpty = true) : ∃ id, id ∈ s := by
  rw [isEmpty_iff] at h
  exact Classical.not_forall_not.mp h

theorem ext_mem {s t : IdSet} (h : ∀ id, id ∈ s ↔ id ∈ t) : s = t := by
  refine Table.ext_get? fun k => ?_
  have := h k
  rw [mem_iff, mem_iff] at this
  cases hs : Table.get? s k <;> cases ht : Table.get? t k <;> simp_all

end IdSet

end MemoryArbiter
