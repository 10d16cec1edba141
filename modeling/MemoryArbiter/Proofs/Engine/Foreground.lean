import MemoryArbiter.Engine.Step
import MemoryArbiter.Proofs.Engine.Pricing

/-! # Bringing an account to the foreground

A switch changes what is due in two accounts only, the former and the new one in the foreground.
All of their bundles are recomputed, one after the other; the others are priced already.
-/

namespace MemoryArbiter

namespace Engine

variable {e : Engine} {uid : Int} {b : Bundle}

/-! ### Recomputing one bundle -/

theorem HousedAt.repricedIn_agreeAt (hh : e.HousedAt uid) (hb : e.bundles.get? uid = some b) {u : Int}
    (hu : u ≠ uid) : e.AgreeAt (e.repricedIn b) u := by
  refine ⟨?_, rfl, rfl⟩
  intro pid p hp
  rw [hh.repricedIn_get? hb]
  cases hq : e.processes.get? pid with
  | none => simp
  | some q =>
    by_cases hqu : q.uid = uid
    · have hne : q ≠ p := fun h => hu (hp.symm.trans ((congrArg TrackedProcess.uid h).symm.trans hqu))
      have hne' : e.repriced q ≠ p := fun h =>
        hu (hp.symm.trans ((congrArg TrackedProcess.uid h).symm.trans hqu))
      simp [hqu, hne, hne']
    · simp [hqu]

theorem HousedAt.repricedIn_tracks (hh : e.HousedAt uid) (hb : e.bundles.get? uid = some b)
    (pid : Int) : (e.repricedIn b).Tracks uid pid ↔ e.Tracks uid pid := by
  unfold Tracks
  rw [hh.repricedIn_get? hb]
  cases hq : e.processes.get? pid with
  | none => simp
  | some q =>
    by_cases hqu : q.uid = uid
    · simp [hqu, repriced]
    · simp [hqu]

theorem HousedAt.repricedIn (hh : e.HousedAt uid) (hb : e.bundles.get? uid = some b) :
    (e.repricedIn b).HousedAt uid := by
  constructor
  · intro pid p hp hu
    obtain ⟨q, hq, rfl⟩ := hh.repricedIn_eq_some hb hp
    by_cases hqu : q.uid = uid
    · rw [if_pos hqu]
      exact hh.process pid q hq hqu
    · rw [if_neg hqu] at hu
      exact absurd hu hqu
  · intro c hc
    obtain ⟨hcu, hacc, hne, hpids⟩ := hh.bundle c hc
    exact ⟨hcu, hacc, hne, fun pid => (hpids pid).trans (hh.repricedIn_tracks hb pid).symm⟩

theorem HousedAt.repricedIn_priority (hh : e.HousedAt uid) (he : e.Enrolled)
    (hb : e.bundles.get? uid = some b) {pid : Int} {p : TrackedProcess}
    (hp : (e.repricedIn b).processes.get? pid = some p) (hu : p.uid = uid) :
    p.priority = (e.repricedIn b).due b p := by
  obtain ⟨q, hq, rfl⟩ := hh.repricedIn_eq_some hb hp
  by_cases hqu : q.uid = uid
  · rw [if_pos hqu]
    exact he.repriced_priority (by rw [hqu]; exact hb)
  · rw [if_neg hqu] at hu
    exact absurd hu hqu

theorem updateMembers_isSome (u : Int) :
    ((e.updateMembers uid).bundles.get? u).isSome = (e.bundles.get? u).isSome := by
  cases hb : e.bundles.get? uid with
  | none => rw [updateMembers_of_none hb]
  | some b =>
    rw [updateMembers_of_some hb]
    exact updateBundle_isSome u

theorem updateMembers_terms : e.SameTerms (e.updateMembers uid) := by
  cases hb : e.bundles.get? uid with
  | none =>
    rw [updateMembers_of_none hb]
    exact SameTerms.refl e
  | some b =>
    have hterms : e.SameTerms (e.repricedIn b) := ⟨rfl, rfl, rfl⟩
    rw [updateMembers_of_some hb]
    exact hterms.trans updateBundle_terms

theorem HousedAt.updateMembers_agreeAt (hh : e.HousedAt uid) {u : Int} (hu : u ≠ uid) :
    e.AgreeAt (e.updateMembers uid) u := by
  cases hb : e.bundles.get? uid with
  | none =>
    rw [updateMembers_of_none hb]
    exact AgreeAt.refl e u
  | some b =>
    rw [updateMembers_of_some hb]
    exact (hh.repricedIn_agreeAt hb hu).trans (updateBundle_agreeAt hu)

theorem Arranged.updateMembers (h : e.Arranged) (uid : Int) : (e.updateMembers uid).Arranged := by
  cases hb : e.bundles.get? uid with
  | none =>
    rw [updateMembers_of_none hb]
    exact h
  | some b =>
    have henr : (e.repricedIn b).Enrolled := h.enrolled.frame ⟨rfl, rfl, rfl⟩ rfl fun _ => rfl
    refine h.of_agree uid updateMembers_terms (fun u hu => (h.housed uid).updateMembers_agreeAt hu)
      ?_ ?_ ?_
    · rw [updateMembers_of_some hb]
      exact ((h.housed uid).repricedIn hb).updateBundle
    · rw [updateMembers_of_some hb]
      exact henr.updateBundle
    · rw [updateMembers_of_some hb]
      exact coherent_updateBundle h.coherent

theorem Arranged.pricedAt_updateMembers (h : e.Arranged) (hb : e.bundles.get? uid = some b) :
    (e.updateMembers uid).PricedAt uid := by
  have hh := h.housed uid
  rw [updateMembers_of_some hb]
  exact (hh.repricedIn hb).pricedAt_updateBundle hb fun pid p hp hu =>
    hh.repricedIn_priority h.enrolled hb hp hu

/-! ### Recomputing one bundle after the other -/

/-- If all uids but `uids` are priced, recomputing these leaves a sound engine. -/
theorem Arranged.foldl_updateMembers (uids : List Int) (h : e.Arranged)
    (hpriced : ∀ u, u ∉ uids → e.PricedAt u) (hsome : ∀ u ∈ uids, (e.bundles.get? u).isSome = true) :
    (uids.foldl Engine.updateMembers e).Sound := by
  induction uids generalizing e with
  | nil => exact ⟨h, fun u => hpriced u (List.not_mem_nil)⟩
  | cons uid uids ih =>
    refine ih (h.updateMembers uid) ?_ ?_
    · intro u hu
      by_cases he : u = uid
      · subst he
        obtain ⟨b, hb⟩ := Option.isSome_iff_exists.mp (hsome u (List.mem_cons_self ..))
        exact h.pricedAt_updateMembers hb
      · have hnot : u ∉ uid :: uids := fun hm => (List.mem_cons.mp hm).elim he hu
        exact (hpriced u hnot).frame ((h.housed uid).updateMembers_agreeAt he)
          (updateMembers_terms.dueOffset _) (congrArg Settings.clamp updateMembers_terms.settings)
    · intro u hu
      rw [updateMembers_isSome]
      exact hsome u (List.mem_cons_of_mem _ hu)

theorem foldl_updateMembers_terms (uids : List Int) (e : Engine) :
    e.SameTerms (uids.foldl updateMembers e) := by
  induction uids generalizing e with
  | nil => exact SameTerms.refl e
  | cons uid uids ih => exact updateMembers_terms.trans (ih (e.updateMembers uid))

/-! ### The switch -/

/-- `e` with `account` in the foreground, before any recomputation. -/
def fronted (e : Engine) (account : Int) : Engine :=
  { e with
    current := some account
    previous := e.current
    accounts := e.accounts.map fun a =>
      { a with isCurrent := a.id == account, isPrevious := some a.id == e.current } }

theorem switchTo_of_current {account : Int} (hc : e.current = some account) :
    (e.switchTo account).1 = e := by
  unfold switchTo
  rw [if_pos hc]

theorem switchTo_fst {account : Int} (hc : e.current ≠ some account) : (e.switchTo account).1 =
    ((e.fronted account).uidsOf (e.current.toList ++ [account])).foldl updateMembers
      (e.fronted account) := by
  unfold switchTo
  rw [if_neg hc]
  rfl

theorem switchTo_settings (e : Engine) (account : Int) :
    (e.switchTo account).1.settings = e.settings := by
  by_cases hc : e.current = some account
  · rw [switchTo_of_current hc]
  · rw [switchTo_fst hc]
    exact (foldl_updateMembers_terms _ (e.fronted account)).settings

theorem switchTo_current (e : Engine) (account : Int) :
    (e.switchTo account).1.current = some account := by
  by_cases hc : e.current = some account
  · rw [switchTo_of_current hc]
    exact hc
  · rw [switchTo_fst hc]
    exact (foldl_updateMembers_terms _ (e.fronted account)).current

theorem fronted_lists (account id u : Int) : (e.fronted account).Lists id u ↔ e.Lists id u := by
  have hget : (e.fronted account).accounts.get? id = (e.accounts.get? id).map fun a =>
      { a with isCurrent := a.id == account, isPrevious := some a.id == e.current } :=
    Table.get?_map _ _ _
  unfold Lists
  rw [hget]
  cases e.accounts.get? id <;> simp

theorem Enrolled.fronted (he : e.Enrolled) (account : Int) : (e.fronted account).Enrolled := by
  have hget : ∀ id a, (e.fronted account).accounts.get? id = some a → ∃ a₀,
      e.accounts.get? id = some a₀ ∧ { a₀ with
        isCurrent := a₀.id == account, isPrevious := some a₀.id == e.current } = a := by
    intro id a ha
    have ha' := (Table.get?_map _ _ _).symm.trans ha
    exact Option.map_eq_some_iff.mp ha'
  refine ⟨?_, ?_, ?_⟩
  · intro id a ha
    obtain ⟨a₀, ha₀, rfl⟩ := hget id a ha
    obtain ⟨hid, -, -, hshift⟩ := he.record id a₀ ha₀
    refine ⟨hid, ?_, ?_, hshift⟩
    · show (a₀.id == account) = (some account == some id)
      rw [hid, Option.some_beq_some]
      exact Bool.beq_comm
    · show (some a₀.id == e.current) = (e.current == some id)
      rw [hid]
      exact Bool.beq_comm
  · intro id a ha
    obtain ⟨a₀, ha₀, rfl⟩ := hget id a ha
    exact he.occupied id a₀ ha₀
  · intro id u
    rw [fronted_lists]
    exact he.lists id u

theorem Arranged.fronted (h : e.Arranged) {account : Int} (hc : e.current ≠ some account) :
    (e.fronted account).Arranged := by
  refine ⟨fun u => (h.housed u).frame ⟨fun _ _ _ => Iff.rfl, rfl, rfl⟩, h.enrolled.fronted account,
    h.coherent, ?_⟩
  intro id hid hp
  have hid' : some account = some id := hid
  exact hc (hp.trans hid'.symm)

theorem mem_uidsOf {ids : List Int} {u : Int} : u ∈ e.uidsOf ids ↔ ∃ id, id ∈ ids ∧ e.Lists id u := by
  unfold uidsOf Lists
  rw [List.mem_flatMap]
  refine exists_congr fun id => and_congr_right ?_
  intro _
  cases e.accounts.get? id <;> simp [IdSet.mem_toList]

theorem fronted_dueOffset {account id : Int} (hid : id ∉ e.current.toList ++ [account]) :
    (e.fronted account).dueOffset id = e.dueOffset id := by
  have h₁ : e.current ≠ some id := fun h => hid (by simp [h])
  have h₂ : (e.fronted account).current ≠ some id := by
    intro h
    have h' : some account = some id := h
    exact hid (by simp [Option.some.inj h'])
  unfold dueOffset
  rw [if_neg h₁, if_neg h₂]

theorem Sound.switchTo (h : e.Sound) (account : Int) : (e.switchTo account).1.Sound := by
  by_cases hc : e.current = some account
  · rw [switchTo_of_current hc]
    exact h
  · have hfr := h.toArranged.fronted hc
    rw [switchTo_fst hc]
    refine hfr.foldl_updateMembers _ ?_ ?_
    · intro u hu
      rw [mem_uidsOf] at hu
      by_cases hid : accountOf u ∈ e.current.toList ++ [account]
      · -- the account is recomputed, but has no bundle of this uid
        have hnone : e.bundles.get? u = none := by
          cases hb : e.bundles.get? u with
          | none => rfl
          | some b =>
            have hl := (hfr.enrolled.lists (accountOf u) u).mpr
              ⟨rfl, Option.isSome_iff_exists.mpr ⟨b, hb⟩⟩
            exact absurd ⟨accountOf u, hid, hl⟩ hu
        refine ⟨?_, ?_, (h.priced u).rank⟩
        · intro _ _ c _ _ hc'
          exact nomatch hnone.symm.trans hc'
        · intro c hc'
          exact nomatch hnone.symm.trans hc'
      · exact (h.priced u).frame ⟨fun _ _ _ => Iff.rfl, rfl, rfl⟩ (fronted_dueOffset hid) rfl
    · intro u hu
      obtain ⟨id, -, hl⟩ := mem_uidsOf.mp hu
      exact ((hfr.enrolled.lists id u).mp hl).2

end Engine

end MemoryArbiter
