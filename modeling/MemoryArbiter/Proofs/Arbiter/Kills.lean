import MemoryArbiter.Proofs.Arbiter.Chronicle
import MemoryArbiter.Proofs.Engine.Recomputation

/-! # No kill is repeated

Every bundle that a pass reports was not spent when the pass began and is spent when it ends, and
only an accepted creation makes a bundle a victim again.  So between two reports of one bundle there
is such a creation, whatever else happens in the meantime.
-/

namespace MemoryArbiter

def Notice.killedUid? : Notice → Option Int
  | bundleKilled uid _ _ _ => some uid
  | _ => none

namespace Entry

def reported (x : Entry) : List Int :=
  match x.matter with
  | .request _ => []
  | .pass report _ => report.killed.map Kill.uid

def died (x : Entry) : List Int :=
  match x.matter with
  | .request _ => []
  | .pass _ died => died

/-- What the engine comes to by the matter alone. -/
def outcome (x : Entry) : Engine :=
  match x.matter with
  | .request r => x.before.after r
  | .pass report _ => x.before.marked (report.killed.map Kill.uid)

def Adds (x : Entry) (uid : Int) : Prop := ∃ r, x.matter = .request r ∧ x.before.Adds r uid

structure Lawful (x : Entry) : Prop where
  sound : x.before.Sound
  after_eq : x.after = x.outcome
  nodup : x.reported.Nodup
  unspent : ∀ uid ∈ x.reported, ¬ x.before.Spent uid
  victims : ∀ pid ∈ x.died, ∃ uid b, x.before.bundles.get? uid = some b ∧ b.pinned = false ∧
    pid ∈ b.pids

variable {x : Entry} {uid pid : Int}

theorem outcome_of_reported (hu : uid ∈ x.reported) : x.outcome = x.before.marked x.reported := by
  obtain ⟨before, matter, after⟩ := x
  cases matter with
  | request r => exact nomatch hu
  | pass report died => rfl

theorem Lawful.waiting (h : x.Lawful) (hu : uid ∈ x.reported) :
    ∃ b, x.after.bundles.get? uid = some b ∧ b.state = .waitingForKill := by
  have hunspent := h.unspent uid hu
  cases hb : x.before.bundles.get? uid with
  | none => exact absurd (fun b hb' => nomatch hb.symm.trans hb') hunspent
  | some b =>
    have hmarked := Engine.waiting_marked hu hb
    rw [← outcome_of_reported hu, ← h.after_eq] at hmarked
    exact ⟨_, hmarked, rfl⟩

theorem Lawful.spent_after (h : x.Lawful) (hspent : x.before.Spent uid) :
    x.after.Spent uid ∨ x.Adds uid := by
  rw [h.after_eq]
  unfold outcome
  split
  · next r hr => exact (h.sound.spent_after hspent r).imp_right fun hadds => ⟨r, hr, hadds⟩
  · exact .inl (Engine.spent_marked hspent _)

theorem Lawful.spared (h : x.Lawful) (hpid : pid ∈ x.died) (uids : List Int) {b : Bundle}
    (htracks : (x.before.marked uids).Tracks uid pid)
    (hb : (x.before.marked uids).bundles.get? uid = some b) : b.pinned = false := by
  obtain ⟨v, c, hc, hpin, hmem⟩ := h.victims pid hpid
  obtain ⟨p, hp, hpv⟩ := (h.sound.mem_pids_iff hc).mp hmem
  obtain ⟨q, hq, hqu⟩ := htracks
  rw [Engine.marked_processes] at hq
  obtain rfl := Option.some.inj (hp.symm.trans hq)
  obtain ⟨d, hd, hpinned⟩ := Engine.pinned_of_marked hb
  rw [← hqu, hpv, hc] at hd
  rw [← hpinned, ← Option.some.inj hd]
  exact hpin

/-! ### Logs -/

/-- The entries are lawful, each begins with the engine that the one before it has left, and the first
one begins with `e`. -/
def Linked : Engine → List Entry → Prop
  | _, [] => True
  | e, x :: log => x.before = e ∧ x.Lawful ∧ Linked x.after log

variable {e : Engine} {log : List Entry}

theorem Linked.lawful (h : Linked e log) : ∀ x ∈ log, x.Lawful := by
  induction log generalizing e with
  | nil => exact fun x hx => nomatch hx
  | cons y log ih =>
    obtain ⟨-, hlawful, hrest⟩ := h
    exact List.forall_mem_cons.mpr ⟨hlawful, ih hrest⟩

theorem Linked.of_append {first : List Entry} (h : Linked e (first ++ log)) :
    ∃ e', Linked e' log := by
  induction first generalizing e with
  | nil => exact ⟨e, h⟩
  | cons y first ih => exact ih h.2.2

/-- A bundle that is spent gets a process before it is reported. -/
theorem Linked.adds_of_spent {between after : List Entry} {y : Entry}
    (h : Linked e (between ++ y :: after)) (hspent : e.Spent uid) (hy : uid ∈ y.reported) :
    ∃ z ∈ between, z.Adds uid := by
  -- that the bundle is spent is handed on from entry to entry, up to the first that adds to it
  induction between generalizing e with
  | nil =>
    obtain ⟨rfl, hlawful, -⟩ := h
    exact absurd hspent (hlawful.unspent uid hy)
  | cons z between ih =>
    obtain ⟨rfl, hlawful, hrest⟩ := h
    rcases hlawful.spent_after hspent with hstill | hadds
    · obtain ⟨w, hw, hadds⟩ := ih hrest hstill
      exact ⟨w, List.mem_cons_of_mem z hw, hadds⟩
    · exact ⟨z, List.mem_cons_self .., hadds⟩

theorem Linked.renewed {first between after : List Entry} {x y : Entry}
    (h : Linked e (first ++ x :: (between ++ y :: after))) (hx : uid ∈ x.reported)
    (hy : uid ∈ y.reported) : ∃ z ∈ between, z.Adds uid := by
  obtain ⟨e', -, hlawful, hrest⟩ := h.of_append
  obtain ⟨b, hb, hstate⟩ := hlawful.waiting hx
  refine hrest.adds_of_spent ?_ hy
  intro c hc
  rw [← Option.some.inj (hb.symm.trans hc)]
  exact hstate

end Entry

/-! ### What an arbiter writes down -/

namespace Arbiter

open Entry

variable {a b : Arbiter SimulatedKernel} {e : Engine} {log : List Entry}

theorem lawful_request (sound : e.Sound) (r : Request) :
    (⟨e, .request r, e.after r⟩ : Entry).Lawful :=
  ⟨sound, rfl, List.nodup_nil, (fun _ hu => nomatch hu), fun _ hp => nomatch hp⟩

/-- The bundle that is tried in a turn is as its row says. -/
theorem fit_bundle (sound : e.Sound) {killer : Killer} {t : Turn} (hfit : t.Fit killer e.snapshot) :
    ∃ b, e.bundles.get? t.row.uid = some b ∧ t.row.pids = b.pids.toList ∧ b.pinned = false ∧
      b.state ≠ .waitingForKill := by
  obtain ⟨uid, b, hb, heq⟩ := sound.mem_snapshot_iff.mp hfit.listed
  have hrow : t.row.uid = uid := by
    rw [heq]
    exact ((sound.housed uid).bundle b hb).1
  have hpin := hfit.unpinned
  have hlive := hfit.live
  rw [heq] at hpin hlive
  exact ⟨b, hrow ▸ hb, congrArg BundleRow.pids heq, hpin, hlive⟩

theorem lawful_pass (he : a.engine? = some e) (sound : e.Sound) {died : List Int}
    (kills : a.runPass.1.kernel.killed = a.kernel.killed ++ died) :
    (⟨e, .pass a.runPass.2 died, e.marked (a.runPass.2.killed.map Kill.uid)⟩ : Entry).Lawful := by
  obtain ⟨t, ht, rfl⟩ := Option.map_eq_some_iff.mp he
  obtain ⟨turns, ending, h, c, hkernel, -, hreport, -⟩ := runPass_course ht
  refine ⟨sound, rfl, ?_, ?_, ?_⟩
  · show (a.runPass.2.killed.map Kill.uid).Nodup
    rw [hreport]
    exact c.killed_uids_nodup rfl
  · intro uid hu hspent
    have hreported : uid ∈ h.report.killed.map Kill.uid := hreport ▸ hu
    obtain ⟨turn, hturn, rfl⟩ := c.exists_turn rfl hreported
    obtain ⟨b, hb, -, -, hlive⟩ := fit_bundle sound (c.fit turn hturn)
    exact hlive (hspent b hb)
  · intro pid hpid
    obtain ⟨died', hsub, hdied⟩ := c.died
    rw [← hkernel, kills] at hdied
    have hmem : pid ∈ died' := List.append_cancel_left hdied ▸ hpid
    obtain ⟨turn, hturn, hin⟩ := List.mem_flatMap.mp (hsub.mem hmem)
    obtain ⟨b, hb, hpids, hpin, -⟩ := fit_bundle sound (c.fit turn hturn)
    rw [hpids] at hin
    exact ⟨turn.row.uid, b, hb, hpin, IdSet.mem_toList.mp hin⟩

theorem Unfolds.linked (h : a.Unfolds log b) (he : a.engine? = some e) (sound : e.Sound) :
    Linked e log := by
  induction h generalizing e with
  | done a => trivial
  | aside engine killer notices rest ih => exact ih (engine.trans he) sound
  | request r before after rest ih =>
    obtain rfl := Option.some.inj (he.symm.trans before)
    obtain rfl := Option.some.inj ((ask_engine? he sound r).symm.trans after)
    exact ⟨rfl, lawful_request sound r, ih after (sound.after r)⟩
  | pass before after kills rest ih =>
    obtain rfl := Option.some.inj (he.symm.trans before)
    obtain rfl := Option.some.inj ((runPass_engine? he).symm.trans after)
    exact ⟨rfl, lawful_pass he sound kills, ih after (sound.marked _)⟩

/-! ### What is published -/

theorem killedUid?_changes (cs : List Change) :
    (cs.map Change.notice).filterMap Notice.killedUid? = [] := by
  rw [List.filterMap_map]
  refine List.filterMap_eq_nil_iff.mpr ?_
  intro c _
  show c.notice.killedUid? = none
  unfold Change.notice
  split <;> rfl

theorem killedUid?_switchNotices (e : Engine) (r : Request) :
    (e.switchNotices r).filterMap Notice.killedUid? = [] := by
  unfold Engine.switchNotices PriorityTask.switchNotice
  split
  · rfl
  · cases (e.after r).current <;> rfl

theorem ask_killedUids (he : a.engine? = some e) (sound : e.Sound) (r : Request) :
    (a.ask r).notices.filterMap Notice.killedUid? = a.notices.filterMap Notice.killedUid? := by
  obtain ⟨t, ht, rfl⟩ := Option.map_eq_some_iff.mp he
  have hnotices : (a.ask r).notices = a.notices ++ (t.handle a.now a.kernel (.work r)).notices := by
    unfold ask call
    rw [ht]
    rfl
  have hfollows := PriorityTask.handle_follows sound a.now a.kernel r
  rw [hnotices, hfollows.notices, List.filterMap_append, List.filterMap_append,
    killedUid?_switchNotices, killedUid?_changes, List.append_nil, List.append_nil]

theorem runPass_killedUids (he : a.engine? = some e) :
    a.runPass.1.notices.filterMap Notice.killedUid? =
      a.notices.filterMap Notice.killedUid? ++ a.runPass.2.killed.map Kill.uid := by
  obtain ⟨t, ht, -⟩ := Option.map_eq_some_iff.mp he
  obtain ⟨turns, ending, h, -, -, -, hreport, hnotices⟩ := runPass_course ht
  have hkills : (h.report.killed.map Kill.notice).filterMap Notice.killedUid? =
      h.report.killed.map Kill.uid := by
    rw [List.filterMap_map, ← List.filterMap_eq_map]
    rfl
  have hfinished : [h.report.notice].filterMap Notice.killedUid? = [] := rfl
  rw [hnotices, hreport, List.filterMap_append, List.filterMap_append, hkills, hfinished,
    List.append_nil]

theorem Unfolds.published (h : a.Unfolds log b) (he : a.engine? = some e) (sound : e.Sound) :
    b.notices.filterMap Notice.killedUid? =
      a.notices.filterMap Notice.killedUid? ++ log.flatMap Entry.reported := by
  induction h generalizing e with
  | done a => exact (List.append_nil _).symm
  | aside engine killer notices rest ih => rw [ih (engine.trans he) sound, notices]
  | request r before after rest ih =>
    rw [ih (ask_engine? he sound r) (sound.after r), ask_killedUids he sound]
    rfl
  | pass before after kills rest ih =>
    rw [ih (runPass_engine? he) (sound.marked _), runPass_killedUids he, List.append_assoc]
    rfl

/-- The kills of all passes in the log, taken together. -/
structure Idempotent (log : List Entry) : Prop where
  steps : ∀ x ∈ log, x.after = x.outcome
  waiting : ∀ x ∈ log, ∀ uid ∈ x.reported,
    ∃ b, x.after.bundles.get? uid = some b ∧ b.state = .waitingForKill
  distinct : ∀ x ∈ log, x.reported.Nodup
  renewed : ∀ first x between y after, log = first ++ x :: (between ++ y :: after) →
    ∀ uid, uid ∈ x.reported → uid ∈ y.reported → ∃ z ∈ between, z.Adds uid
  /-- At every moment of a pass the engine is that before it with some bundles marked. -/
  spared : ∀ x ∈ log, ∀ pid ∈ x.died, ∀ uids uid b, (x.before.marked uids).Tracks uid pid →
    (x.before.marked uids).bundles.get? uid = some b → b.pinned = false

/-- Every course of an arbiter over the simulated kernel can be written down, and however that is done,
the kills that are published are those of the log and are idempotent across passes. -/
theorem kills_idempotent (settings : Settings) (killer : Killer) (capacity : Nat)
    (kernel : SimulatedKernel) (deeds : List (Deed SimulatedKernel)) :
    (∃ log, (Arbiter.new settings killer capacity kernel).Chronicled deeds log) ∧
      ∀ log, (Arbiter.new settings killer capacity kernel).Chronicled deeds log →
        (deeds.foldl Arbiter.act (.new settings killer capacity kernel)).notices.filterMap
          Notice.killedUid? = log.flatMap Entry.reported ∧ Idempotent log := by
  have hsound := Engine.sound_new settings
  refine ⟨exists_chronicle deeds rfl hsound, ?_⟩
  intro log hlog
  refine ⟨hlog.unfolds.published rfl hsound, ?_⟩
  have hlinked : Linked (.new settings) log := hlog.unfolds.linked rfl hsound
  have hlawful := hlinked.lawful
  refine ⟨fun x hx => (hlawful x hx).after_eq, fun x hx uid hu => (hlawful x hx).waiting hu,
    fun x hx => (hlawful x hx).nodup, ?_,
    fun x hx pid hpid uids uid b => (hlawful x hx).spared hpid uids⟩
  rintro first x between y after rfl uid hx hy
  exact hlinked.renewed hx hy

end Arbiter

end MemoryArbiter
