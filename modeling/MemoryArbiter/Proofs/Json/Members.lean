import MemoryArbiter.Json.Record

/-! # Members of a record

What a record reads depends on its own members only: on those with a declared name, each of which
stands there once at most.  Their order and the members between them do not matter.
-/

namespace MemoryArbiter.Json

variable {name : String} {names : List String} {slots : List (Option Json)}
  {members : List (String × Json)}

/-- The values of the members with the name. -/
def valuesOf (name : String) (members : List (String × Json)) : List Json :=
  members.filterMap fun m => if m.1 = name then some m.2 else none

/-- The members with the declared names; a member that is left out has no value. -/
def present : List String → List (Option Json) → List (String × Json)
  | name :: names, some v :: slots => (name, v) :: present names slots
  | _ :: names, none :: slots => present names slots
  | _, _ => []

theorem valuesOf_cons_self (name : String) (v : Json) (members : List (String × Json)) :
    valuesOf name ((name, v) :: members) = v :: valuesOf name members := by
  simp [valuesOf]

theorem valuesOf_cons_of_ne {m : String × Json} (hm : m.1 ≠ name)
    (members : List (String × Json)) : valuesOf name (m :: members) = valuesOf name members := by
  simp [valuesOf, hm]

theorem valuesOf_eq_nil (hname : ∀ m ∈ members, m.1 ≠ name) : valuesOf name members = [] :=
  List.filterMap_eq_nil_iff.mpr fun m hm => if_neg (hname m hm)

theorem mem_of_mem_present {m : String × Json} (hm : m ∈ present names slots) : m.1 ∈ names := by
  fun_induction present names slots with
  | case1 name names v slots ih =>
    rcases List.mem_cons.mp hm with rfl | hm
    · exact List.mem_cons_self
    · exact List.mem_cons_of_mem _ (ih hm)
  | case2 name names slots ih => exact List.mem_cons_of_mem _ (ih hm)
  | case3 => exact nomatch hm

theorem valuesOf_present_of_not_mem (hname : name ∉ names) :
    valuesOf name (present names slots) = [] :=
  valuesOf_eq_nil fun _ hm heq => hname (heq ▸ mem_of_mem_present hm)

theorem valuesOf_present (hnames : names.Nodup) {slot : Option Json}
    (hslot : (name, slot) ∈ names.zip slots) :
    valuesOf name (present names slots) = slot.toList := by
  fun_induction present names slots with
  | case1 n names v slots ih =>
    obtain ⟨hn, hnames⟩ := List.nodup_cons.mp hnames
    rcases List.mem_cons.mp hslot with heq | hslot
    · obtain ⟨rfl, rfl⟩ := Prod.mk.inj heq
      rw [valuesOf_cons_self, valuesOf_present_of_not_mem hn, Option.toList_some]
    · have hne : n ≠ name := fun heq => hn (heq ▸ (List.of_mem_zip hslot).1)
      rw [valuesOf_cons_of_ne hne, ih hnames hslot]
  | case2 n names slots ih =>
    obtain ⟨hn, hnames⟩ := List.nodup_cons.mp hnames
    rcases List.mem_cons.mp hslot with heq | hslot
    · obtain ⟨rfl, rfl⟩ := Prod.mk.inj heq
      rw [valuesOf_present_of_not_mem hn, Option.toList_none]
    · exact ih hnames hslot
  | case3 names slots hsome hnone =>
    match names, slots with
    | [], _ => exact nomatch hslot
    | n :: names, [] => exact nomatch hslot
    | n :: names, some v :: slots => exact absurd rfl (hsome n names v slots rfl)
    | n :: names, none :: slots => exact absurd rfl (hnone n names slots rfl)

theorem find?_ofMembers (name : String) (members : List (String × Json)) :
    find? name (members.map fun (name, value) => (some name, value)) =
      (valuesOf name members).head? := by
  induction members with
  | nil => rfl
  | cons m members ih =>
    by_cases hm : m.1 = name
    · simp [find?, valuesOf, hm]
    · simpa [find?, valuesOf, hm] using ih

theorem countName_ofMembers (name : String) (members : List (String × Json)) :
    countName name (members.map fun (name, value) => (some name, value)) =
      (valuesOf name members).length := by
  induction members with
  | nil => rfl
  | cons m members ih =>
    unfold countName at ih ⊢
    by_cases hm : m.1 = name
    · simpa [valuesOf, hm] using ih
    · simpa [valuesOf, hm] using ih

theorem valuesOf_filter (hname : name ∈ names) (members : List (String × Json)) :
    valuesOf name (members.filter fun m => names.contains m.1) = valuesOf name members := by
  unfold valuesOf
  rw [List.filterMap_filter]
  congr 1
  funext m
  by_cases hm : m.1 = name
  · simp [hm, hname]
  · simp [hm]

/-- A record whose declared members are these, in any order and with any others between them. -/
theorem members?_of_perm (hnames : names.Nodup) (hlength : names.length = slots.length)
    (hperm : (members.filter fun m => names.contains m.1).Perm (present names slots)) :
    members? names (ofMembers members) = some slots := by
  have hvalues : ∀ p ∈ names.zip slots, valuesOf p.1 members = p.2.toList := by
    rintro ⟨name, slot⟩ hslot
    have h : (valuesOf name members).Perm slot.toList := by
      rw [← valuesOf_filter (List.of_mem_zip hslot).1, ← valuesOf_present hnames hslot]
      exact hperm.filterMap _
    cases slot with
    | none => exact List.perm_nil.mp h
    | some v => exact List.perm_singleton.mp h
  -- the names are the first halves of the pairs, and the slots the second ones
  have hfirst : (names.zip slots).map Prod.fst = names := List.map_fst_zip (Nat.le_of_eq hlength)
  have hsecond : (names.zip slots).map Prod.snd = slots :=
    List.map_snd_zip (Nat.le_of_eq hlength.symm)
  have hcount : ∀ name ∈ names, (valuesOf name members).length ≤ 1 := by
    rw [← hfirst, List.forall_mem_map]
    intro p hp
    rw [hvalues p hp]
    cases p.2 <;> simp
  have hfind : names.map (fun name => (valuesOf name members).head?) = slots := by
    conv => lhs; rw [← hfirst, List.map_map]
    conv => rhs; rw [← hsecond]
    refine List.map_congr_left fun p hp => ?_
    rw [Function.comp_apply, hvalues p hp]
    cases p.2 <;> rfl
  unfold ofMembers members?
  simp only [find?_ofMembers, countName_ofMembers, hfind]
  rw [if_pos]
  simpa using hcount

end MemoryArbiter.Json
