import MemoryArbiter.Proofs.Json.Spelling

/-! # Code units

A quote takes the code units of a string one by one.  It ends up with a text if and only if the
units are those of a text: then each half of a surrogate pair has met its partner.
-/

namespace MemoryArbiter.Json

variable {cs : List Char} {u v : Nat} {us : List Nat} {q : Quote} {s : String}

/-! ### The units of a text -/

/-- The unit is a character on its own. -/
def Single (u : Nat) : Prop := u < 0xD800 ∨ 0xE000 ≤ u ∧ u < 0x10000

theorem isHighSurrogate_iff (u : Nat) : isHighSurrogate u = true ↔ 0xD800 ≤ u ∧ u < 0xDC00 := by
  simp [isHighSurrogate]

theorem isLowSurrogate_iff (u : Nat) : isLowSurrogate u = true ↔ 0xDC00 ≤ u ∧ u < 0xE000 := by
  simp [isLowSurrogate]

theorem unit_cases (hu : u < 0x10000) :
    Single u ∨ isHighSurrogate u = true ∨ isLowSurrogate u = true := by
  rw [isHighSurrogate_iff, isLowSurrogate_iff, Single]
  omega

theorem not_low_of_single (hu : Single u) : isLowSurrogate u = false := by
  unfold Single at hu
  rw [Bool.eq_false_iff, ne_eq, isLowSurrogate_iff]
  omega

theorem not_high_of_single (hu : Single u) : isHighSurrogate u = false := by
  unfold Single at hu
  rw [Bool.eq_false_iff, ne_eq, isHighSurrogate_iff]
  omega

theorem not_low_of_high (hu : isHighSurrogate u = true) : isLowSurrogate u = false := by
  rw [isHighSurrogate_iff] at hu
  rw [Bool.eq_false_iff, ne_eq, isLowSurrogate_iff]
  omega

theorem toNat_ofNat_of_isValidChar (hu : u.isValidChar) : (Char.ofNat u).toNat = u := by
  unfold Char.ofNat
  rw [dif_pos hu]
  rfl

theorem toNat_pairChar (hu : isHighSurrogate u = true) (hv : isLowSurrogate v = true) :
    (pairChar u v).toNat = 0x10000 + (u - 0xD800) * 0x400 + (v - 0xDC00) := by
  rw [isHighSurrogate_iff] at hu
  rw [isLowSurrogate_iff] at hv
  exact toNat_ofNat_of_isValidChar (.inr (by omega))

theorem units_pairChar (hu : isHighSurrogate u = true) (hv : isLowSurrogate v = true) :
    units (pairChar u v) = [u, v] := by
  have hchar := toNat_pairChar hu hv
  rw [isHighSurrogate_iff] at hu
  rw [isLowSurrogate_iff] at hv
  have hlarge : ¬ (pairChar u v).toNat < 0x10000 := by omega
  have hfirst : 0xD800 + ((pairChar u v).toNat - 0x10000) / 0x400 = u := by omega
  have hsecond : 0xDC00 + ((pairChar u v).toNat - 0x10000) % 0x400 = v := by omega
  rw [units, if_neg hlarge, hfirst, hsecond]

theorem toNat_ofNat_of_single (hu : Single u) : (Char.ofNat u).toNat = u := by
  unfold Single at hu
  exact toNat_ofNat_of_isValidChar (by unfold Nat.isValidChar; omega)

theorem units_ofNat (hu : Single u) : units (Char.ofNat u) = [u] := by
  have hchar := toNat_ofNat_of_single hu
  unfold Single at hu
  rw [units, hchar, if_pos (by omega)]

/-- A character is one unit, or a pair of surrogates. -/
theorem exists_units (c : Char) : (Single c.toNat ∧ units c = [c.toNat]) ∨
    ∃ u v, isHighSurrogate u = true ∧ isLowSurrogate v = true ∧ c = pairChar u v := by
  have hvalid : c.toNat < 0xD800 ∨ 0xDFFF < c.toNat ∧ c.toNat < 0x110000 := c.valid
  by_cases hsmall : c.toNat < 0x10000
  · refine .inl ⟨?_, if_pos hsmall⟩
    unfold Single
    omega
  · have hhigh : isHighSurrogate (0xD800 + (c.toNat - 0x10000) / 0x400) = true := by
      rw [isHighSurrogate_iff]
      omega
    have hlow : isLowSurrogate (0xDC00 + (c.toNat - 0x10000) % 0x400) = true := by
      rw [isLowSurrogate_iff]
      omega
    have hpair := toNat_pairChar hhigh hlow
    exact .inr ⟨_, _, hhigh, hlow, Char.toNat_inj.mp (by omega)⟩

theorem lt_of_mem_units {c : Char} (hu : u ∈ units c) : u < 0x10000 := by
  rcases exists_units c with ⟨hsingle, hunits⟩ | ⟨v, w, hv, hw, hpair⟩
  · rw [hunits, List.mem_singleton] at hu
    unfold Single at hsingle
    omega
  · rw [hpair, units_pairChar hv hw] at hu
    simp only [List.mem_cons, List.not_mem_nil, or_false] at hu
    rw [isHighSurrogate_iff] at hv
    rw [isLowSurrogate_iff] at hw
    omega

/-- What the first unit of a text tells about the text. -/
theorem exists_of_flatMap_units_eq_cons (h : cs.flatMap units = u :: us) :
    (Single u ∧ ∃ rest, cs = Char.ofNat u :: rest ∧ rest.flatMap units = us) ∨
      (isHighSurrogate u = true ∧ ∃ v vs rest, us = v :: vs ∧ isLowSurrogate v = true ∧
        cs = pairChar u v :: rest ∧ rest.flatMap units = vs) := by
  cases cs with
  | nil => exact nomatch h
  | cons c rest =>
    rw [List.flatMap_cons] at h
    rcases exists_units c with ⟨hsingle, hunits⟩ | ⟨v, w, hv, hw, hpair⟩
    · rw [hunits] at h
      obtain ⟨rfl, rfl⟩ := List.cons.inj h
      exact .inl ⟨hsingle, rest, by rw [Char.ofNat_toNat], rfl⟩
    · rw [hpair, units_pairChar hv hw, List.cons_append, List.cons_append, List.nil_append] at h
      obtain ⟨rfl, rfl⟩ := List.cons.inj h
      exact .inr ⟨hv, w, rest.flatMap units, rest, rfl, hw, by rw [hpair], rfl⟩

theorem flatMap_units_eq_nil_iff : cs.flatMap units = [] ↔ cs = [] := by
  cases cs with
  | nil => simp
  | cons c cs =>
    rcases exists_units c with ⟨-, hc⟩ | ⟨u, v, hu, hv, hc⟩
    · simp [hc]
    · simp [hc, units_pairChar hu hv]

theorem flatMap_units_eq_pair_iff (hu : isHighSurrogate u = true) (hv : isLowSurrogate v = true) :
    cs.flatMap units = u :: v :: us ↔
      ∃ rest, cs = pairChar u v :: rest ∧ rest.flatMap units = us := by
  constructor
  · intro h
    rcases exists_of_flatMap_units_eq_cons h with
      ⟨hsingle, -⟩ | ⟨-, w, ws, rest, hws, -, hcs, hrest⟩
    · exact absurd hu (by simp [not_high_of_single hsingle])
    · obtain ⟨rfl, rfl⟩ := List.cons.inj hws
      exact ⟨rest, hcs, hrest⟩
  · rintro ⟨rest, hcs, rfl⟩
    rw [hcs, List.flatMap_cons, units_pairChar hu hv]
    rfl

theorem flatMap_units_eq_single_iff (hu : Single u) :
    cs.flatMap units = u :: us ↔ ∃ rest, cs = Char.ofNat u :: rest ∧ rest.flatMap units = us := by
  constructor
  · intro h
    rcases exists_of_flatMap_units_eq_cons h with ⟨-, hrest⟩ | ⟨hhigh, -⟩
    · exact hrest
    · exact absurd hhigh (by simp [not_high_of_single hu])
  · rintro ⟨rest, hcs, rfl⟩
    rw [hcs, List.flatMap_cons, units_ofNat hu]
    rfl

/-! ### Quotes -/

/-- With the code units `us` behind what the quote has read, it denotes the text `s`. -/
def Quote.Spells (q : Quote) (us : List Nat) (s : String) : Prop :=
  q.sound = true ∧ ∃ rest, s.toList = q.chars.reverse ++ rest ∧
    rest.flatMap units = q.high.toList ++ us

/-- What waits for a partner is the first half of a pair. -/
def Quote.Awaits (q : Quote) : Prop := ∀ u, q.high = some u → isHighSurrogate u = true

theorem Quote.awaits_new : Quote.Awaits {} := by
  intro u hu
  cases hu

theorem Quote.Awaits.pushUnit (hq : q.Awaits) (u : Nat) : (q.pushUnit u).Awaits := by
  intro v hv
  unfold Quote.pushUnit at hv
  split at hv
  · split at hv
    · exact nomatch hv
    · next hnone => exact nomatch hnone.symm.trans hv
  · split at hv
    · next hhigh =>
      obtain rfl : u = v := by simpa using hv
      exact hhigh
    · unfold Quote.push Quote.settle at hv
      split at hv
      · exact nomatch hv
      · exact hq v hv

/-- The first half of a pair waits in vain if what follows is not the second half. -/
theorem Quote.not_spells_of_not_low {chars : List Char} {sound : Bool}
    (hu : isHighSurrogate u = true) (hus : ∀ v vs, us = v :: vs → isLowSurrogate v = false) :
    ¬ Quote.Spells ⟨chars, some u, sound⟩ us s := by
  rintro ⟨-, rest, -, hrest⟩
  rcases exists_of_flatMap_units_eq_cons hrest with ⟨hsingle, -⟩ | ⟨-, v, vs, -, rfl, hv, -⟩
  · exact absurd hu (by simp [not_high_of_single hsingle])
  · exact absurd hv (by simp [hus v vs rfl])

theorem Quote.not_spells_of_unsound (hq : q.sound = false) : ¬ q.Spells us s :=
  fun h => absurd h.1 (by simp [hq])

/-- A character that is complete may as well be read before. -/
theorem Quote.spells_cons {c : Char} {chars : List Char} {sound : Bool} {vs : List Nat}
    (hvs : ∀ rest, (rest : List Char).flatMap units = vs ↔
      ∃ later, rest = c :: later ∧ later.flatMap units = us) :
    Quote.Spells ⟨c :: chars, none, sound⟩ us s ↔
      sound = true ∧ ∃ rest, s.toList = chars.reverse ++ rest ∧ rest.flatMap units = vs := by
  unfold Quote.Spells
  refine and_congr_right fun _ => ⟨?_, ?_⟩
  · rintro ⟨later, hs, hlater⟩
    exact ⟨c :: later, by simpa using hs, (hvs _).mpr ⟨later, rfl, hlater⟩⟩
  · rintro ⟨rest, hs, hrest⟩
    obtain ⟨later, rfl, hlater⟩ := (hvs rest).mp hrest
    exact ⟨later, by simpa using hs, hlater⟩

theorem Quote.sound_pushUnit_of_waiting {chars : List Char} {sound : Bool}
    (hu : isLowSurrogate u = false) : (Quote.pushUnit ⟨chars, some v, sound⟩ u).sound = false := by
  cases hhigh : isHighSurrogate u <;> simp [Quote.pushUnit, hu, hhigh, Quote.push, Quote.settle]

theorem Quote.spells_pushUnit (hq : q.Awaits) (hu : u < 0x10000) :
    (q.pushUnit u).Spells us s ↔ q.Spells (u :: us) s := by
  obtain ⟨chars, high, sound⟩ := q
  cases hlow : isLowSurrogate u with
  | true =>
    cases high with
    | none =>
      simp only [Quote.pushUnit, hlow]
      refine iff_of_false (Quote.not_spells_of_unsound rfl) ?_
      rintro ⟨-, rest, -, hrest⟩
      rcases exists_of_flatMap_units_eq_cons hrest with ⟨hsingle, -⟩ | ⟨hhigh, -⟩
      · exact absurd hlow (by simp [not_low_of_single hsingle])
      · exact absurd hlow (by simp [not_low_of_high hhigh])
    | some v =>
      simp only [Quote.pushUnit, hlow]
      exact Quote.spells_cons fun rest => flatMap_units_eq_pair_iff (hq v rfl) hlow
  | false =>
    cases high with
    | none =>
      rcases unit_cases hu with hsingle | hhigh | hlow'
      · simp only [Quote.pushUnit, hlow, not_high_of_single hsingle, Quote.push, Quote.settle]
        exact Quote.spells_cons fun rest => flatMap_units_eq_single_iff hsingle
      · simp only [Quote.pushUnit, hlow, hhigh, Quote.settle]
        exact Iff.rfl
      · exact absurd hlow' (by simp [hlow])
    | some v =>
      refine iff_of_false (Quote.not_spells_of_unsound (Quote.sound_pushUnit_of_waiting hlow))
        (Quote.not_spells_of_not_low (hq v rfl) ?_)
      rintro w ws ⟨rfl, -⟩
      exact hlow

theorem Quote.text_eq_some_iff (hq : q.Awaits) : q.text = some s ↔ q.Spells [] s := by
  obtain ⟨chars, high, sound⟩ := q
  cases high with
  | none =>
    cases sound with
    | false => simp [Quote.text, Quote.settle, Quote.Spells]
    | true =>
      have htext : Quote.text ⟨chars, none, true⟩ = some (String.ofList chars.reverse) := rfl
      rw [htext, Option.some_inj, ← String.toList_inj, String.toList_ofList, eq_comm]
      simp only [Quote.Spells, Option.toList_none, List.append_nil, flatMap_units_eq_nil_iff,
        exists_eq_right, true_and]
  | some u =>
    exact iff_of_false (by simp [Quote.text, Quote.settle])
      (Quote.not_spells_of_not_low (hq u rfl) nofun)

theorem Quote.text_foldl_pushUnit (hq : q.Awaits) (hus : ∀ u ∈ us, u < 0x10000) :
    (us.foldl Quote.pushUnit q).text = some s ↔ q.Spells us s := by
  induction us generalizing q with
  | nil => exact Quote.text_eq_some_iff hq
  | cons u us ih =>
    rw [List.foldl_cons, ih (hq.pushUnit u) fun v hv => hus v (List.mem_cons_of_mem u hv),
      Quote.spells_pushUnit hq (hus u List.mem_cons_self)]

theorem Quote.foldl_pushUnit_units (q : Quote) (c : Char) :
    (units c).foldl Quote.pushUnit q = q.push c := by
  rcases exists_units c with ⟨hsingle, hc⟩ | ⟨u, v, hu, hv, hc⟩
  · simp [hc, Quote.pushUnit, not_low_of_single hsingle, not_high_of_single hsingle]
  · obtain ⟨chars, high, sound⟩ := q
    cases high <;> simp [hc, units_pairChar hu hv, Quote.pushUnit, Quote.push, Quote.settle,
      not_low_of_high hu, hu, hv]

/-- A string that is read from its start denotes the text that has its code units. -/
theorem Quote.text_foldl_new (hus : ∀ u ∈ us, u < 0x10000) :
    (us.foldl Quote.pushUnit {}).text = some s ↔ s.toList.flatMap units = us := by
  rw [Quote.text_foldl_pushUnit awaits_new hus]
  simp [Quote.Spells]

theorem Quote.text_of_denotes {text : Option String} (hus : ∀ u ∈ us, u < 0x10000)
    (h : Denotes us text) : (us.foldl Quote.pushUnit {}).text = text :=
  Option.ext fun s => (Quote.text_foldl_new hus).trans (h s).symm

theorem denotes_units (s : String) : Denotes (s.toList.flatMap units) (some s) := by
  have hus : ∀ u ∈ s.toList.flatMap units, u < 0x10000 := fun u hu =>
    let ⟨_, _, hc⟩ := List.mem_flatMap.mp hu
    lt_of_mem_units hc
  intro t
  rw [← (Quote.text_foldl_new hus).mpr rfl, Quote.text_foldl_new hus]

theorem denotes_lone (hu : isHighSurrogate u = true) : Denotes [u] none := by
  refine fun s => iff_of_false nofun fun h => ?_
  rcases exists_of_flatMap_units_eq_cons h with ⟨hsingle, -⟩ | ⟨-, v, vs, rest, hvs, -⟩
  · exact absurd hu (by simp [not_high_of_single hsingle])
  · exact nomatch hvs

end MemoryArbiter.Json
