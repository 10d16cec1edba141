import MemoryArbiter.Proofs.Engine.Turnover
import Mathlib.Data.List.Induction
import Mathlib.Data.List.Nodup

/-! # A token takes back its own boost only

Tokens are handed out in ascending order, so a boost that waits under an old token has waited ever
since that token was armed: nothing has ended it, and its process is still the same.  A timer that
comes late finds another token, or none, and changes nothing.
-/

namespace MemoryArbiter

def Effect.arming? : Effect → Option (Int × Nat)
  | armTimer pid token _ => some (pid, token)
  | _ => none

def StepReport.armings (r : StepReport) : List (Int × Nat) := r.effects.filterMap Effect.arming?

namespace Engine

variable {e e' : Engine} {pid q : Int} {token : Nat} {b : Boost} {p : TrackedProcess} {r : Request}
  {work : List Effect}

/-! ### One request -/

theorem cancels_arming? (e : Engine) (pids : List Int) :
    (e.cancels pids).filterMap Effect.arming? = [] := by
  unfold cancels
  rw [List.filterMap_map, List.filterMap_eq_nil_iff]
  exact fun _ _ => rfl

theorem armings_eq (e : Engine) (r : Request) :
    (e.reportOf r).armings = (e.timerWork r).filterMap Effect.arming? := by
  have hspent : (e.spent r).filterMap Effect.arming? = [] := by
    unfold spent
    split
    · split <;> rfl
    · rfl
  unfold timerWork StepReport.armings StepReport.timers
  rw [List.filterMap_append, hspent, List.nil_append, List.filterMap_filter]
  refine List.filterMap_congr ?_
  intro x _
  cases x <;> rfl

theorem Turnover.lastToken_le (h : Turnover e e' r work) : e.lastToken ≤ e'.lastToken := by
  cases h with
  | freed gone frees ends => exact Nat.le_of_eq frees.lastToken.symm
  | armed ev asked pid uid reason isBoost period kept lease lastToken ends => omega

/-- A boost that waits afterwards either did so before, and has not been ended, or is new. -/
theorem Turnover.waiting (h : Turnover e e' r work) (hb : e'.boost? pid = some b) :
    (e'.lease? pid = e.lease? pid ∧ ¬ e.Ends pid r) ∨
      (b.token = e.lastToken + 1 ∧ b.reason.isBoost = true ∧
        (pid, b.token) ∈ work.filterMap Effect.arming?) := by
  cases h with
  | freed gone frees ends =>
    have hnot : pid ∉ gone := fun hg => nomatch (frees.lost pid hg).symm.trans hb
    have hkept := frees.kept pid hnot
    have hbefore : e.boost? pid ≠ none := by
      rw [← boost?_congr hkept, hb]
      exact fun h => nomatch h
    exact Or.inl ⟨hkept, fun hends => hnot ((ends pid hbefore).mp hends)⟩
  | armed ev asked pid' uid reason isBoost period kept lease lastToken ends =>
    by_cases hpid : pid = pid'
    · subst hpid
      rw [boost?_of_lease? lease] at hb
      obtain rfl := Option.some.inj hb
      refine Or.inr ⟨rfl, isBoost, ?_⟩
      simp [cancels_arming?, Effect.arming?]
    · exact Or.inl ⟨kept pid hpid, fun hends => hpid ((ends pid).mp hends)⟩

theorem Turnover.kept (h : Turnover e e' r work) (hb : e.boost? pid ≠ none)
    (hno : ¬ e.Ends pid r) : e'.lease? pid = e.lease? pid := by
  cases h with
  | freed gone frees ends => exact frees.kept pid fun hg => hno ((ends pid hb).mpr hg)
  | armed ev asked pid' uid reason isBoost period kept lease lastToken ends =>
    exact kept pid fun he => hno ((ends pid).mpr he)

theorem Turnover.arming (h : Turnover e e' r work)
    (hmem : (pid, token) ∈ work.filterMap Effect.arming?) :
    token = e.lastToken + 1 ∧ e'.lastToken = token ∧
      ∃ b, e'.boost? pid = some b ∧ b.token = token := by
  cases h with
  | freed gone frees ends =>
    rw [cancels_arming?] at hmem
    cases hmem
  | armed ev asked pid' uid reason isBoost period kept lease lastToken ends =>
    rw [List.filterMap_append, cancels_arming?] at hmem
    have heq : (pid, token) = (pid', e.lastToken + 1) := by
      simpa [Effect.arming?] using hmem
    obtain ⟨rfl, rfl⟩ := Prod.mk.inj heq
    exact ⟨rfl, lastToken, ⟨e.lastToken + 1, reason⟩, boost?_of_lease? lease, rfl⟩

theorem Sound.arming (h : e.Sound) (hmem : (pid, token) ∈ (e.reportOf r).armings) :
    token = e.lastToken + 1 ∧ (e.after r).lastToken = token ∧
      ∃ b, (e.after r).boost? pid = some b ∧ b.token = token := by
  rw [armings_eq] at hmem
  exact (h.turnover r).arming hmem

theorem Turnover.armings_length (h : Turnover e e' r work) :
    (work.filterMap Effect.arming?).length ≤ 1 := by
  cases h with
  | freed gone frees ends => simp [cancels_arming?]
  | armed ev asked pid uid reason isBoost period kept lease lastToken ends =>
    simp [cancels_arming?, Effect.arming?]

/-! ### What waits can be taken back -/

/-- Every boost that waits has a token that was handed out, and a reason that can be undone. -/
structure Tokened (e : Engine) : Prop where
  le : ∀ pid b, e.boost? pid = some b → b.token ≤ e.lastToken
  isBoost : ∀ pid b, e.boost? pid = some b → b.reason.isBoost = true

theorem tokened_new (settings : Settings) : (new settings).Tokened :=
  ⟨(fun _ _ h => nomatch h), (fun _ _ h => nomatch h)⟩

theorem Turnover.tokened (h : Turnover e e' r work) (ht : e.Tokened) : e'.Tokened := by
  have hle := h.lastToken_le
  constructor
  · intro pid b hb
    rcases h.waiting hb with ⟨hkept, -⟩ | ⟨htoken, -, hmem⟩
    · rw [boost?_congr hkept] at hb
      exact Nat.le_trans (ht.le pid b hb) hle
    · obtain ⟨-, hlast, -⟩ := h.arming hmem
      omega
  · intro pid b hb
    rcases h.waiting hb with ⟨hkept, -⟩ | ⟨-, hboost, -⟩
    · rw [boost?_congr hkept] at hb
      exact ht.isBoost pid b hb
    · exact hboost

theorem Tokened.accepts_iff (ht : e.Tokened) :
    e.Accepts (.expireBoost pid token) ↔ ∃ b, e.boost? pid = some b ∧ b.token = token := by
  constructor
  · rintro ⟨report, hok⟩
    obtain ⟨p, b, undo, hp, hb, htoken, -⟩ := expireBoost_ok hok
    exact ⟨b, (boost?_of_get? hp).trans hb, htoken⟩
  · rintro ⟨b, hb, htoken⟩
    obtain ⟨undo, hundo⟩ := Option.isSome_iff_exists.mp ((Reason.isBoost_iff _).mp (ht.isBoost pid b hb))
    obtain ⟨p, hp, hpb⟩ := boost?_eq_some_iff.mp hb
    have hfound : (p.boost.filter fun b => b.token == token).bind (fun b => b.reason.undo?) =
        some undo := by
      simp [hpb, Option.filter_some, htoken, hundo]
    unfold Accepts step expireBoost
    simp only [hp, hfound, conclude]
    exact ⟨_, rfl⟩

/-- From `e` to `e'` the process `p` has lost its boost and responded to `reason`; its priority and
that of its bundle have followed, and nothing else has changed. -/
structure Reverts (e e' : Engine) (p : TrackedProcess) (reason : Reason) : Prop where
  process : e'.processes.get? p.pid =
    some (e.repriced ({ p with boost := none }.respond reason none))
  processes : ∀ q, q ≠ p.pid → e'.processes.get? q = e.processes.get? q
  bundle : e'.bundles.get? p.uid =
    (e.bundles.get? p.uid).map fun b => { b with priority := e'.bundlePriority b }
  elsewhere : ∀ u, u ≠ p.uid → e.AgreeAt e' u
  accounts : e'.accounts = e.accounts
  terms : e.SameTerms e'
  lastToken : e'.lastToken = e.lastToken

theorem Sound.reverts_putProcess (h : e.Sound) {pid : Int} (hp : e.processes.get? pid = some p)
    (reason : Reason) :
    e.Reverts (e.putProcess ({ p with boost := none }.respond reason none)) p reason := by
  have hpid : p.pid = pid := h.pid_eq hp
  obtain ⟨hrp, hru⟩ := { p with boost := none }.respond_ids reason none
  have hget : ∀ q, (e.putProcess ({ p with boost := none }.respond reason none)).processes.get? q =
      if p.pid = q then some (e.repriced ({ p with boost := none }.respond reason none))
      else e.processes.get? q := by
    intro q
    rw [putProcess_eq_withProcess, updateBundle_processes, withProcess_get?, hrp]
  have hworks := worksOn_putProcess (e := e) (q := p)
    (p := { p with boost := none }.respond reason none) (by rw [hrp, hpid]; exact hp) hru.symm
  rw [hru] at hworks
  refine ⟨?_, ?_, ?_, hworks.elsewhere, ?_, putProcess_terms _, putProcess_lastToken _ _⟩
  · rw [hget, if_pos rfl]
  · intro q hq
    rw [hget, if_neg (Ne.symm hq)]
  · rw [putProcess_eq_withProcess, hru]
    cases hb : e.bundles.get? p.uid with
    | none =>
      have hb' : (e.withProcess ({ p with boost := none }.respond reason none)).bundles.get? p.uid =
          none := hb
      rw [updateBundle_of_none hb', hb']
      rfl
    | some b =>
      have hb' : (e.withProcess ({ p with boost := none }.respond reason none)).bundles.get? p.uid =
          some b := hb
      rw [updateBundle_of_some hb']
      exact Table.get?_insert_self _ _ _
  · rw [putProcess_eq_withProcess, updateBundle_accounts]
    rfl

/-! ### Runs -/

theorem run_tokened (settings : Settings) (requests : List Request) :
    (run settings requests).Tokened :=
  run_sound_induction (tokened_new settings) (fun _ r h ht => (h.turnover r).tokened ht) requests

theorem Sound.history_tokens (requests : List Request) (h : e.Sound) :
    (((e.history requests).flatMap StepReport.armings).map Prod.snd).Pairwise (· < ·) ∧
      ∀ n ∈ ((e.history requests).flatMap StepReport.armings).map Prod.snd, e.lastToken < n := by
  induction requests generalizing e with
  | nil => exact ⟨List.Pairwise.nil, (fun _ h => nomatch h)⟩
  | cons r requests ih =>
    obtain ⟨hlater, hbound⟩ := ih (h.after r)
    have hturn := h.turnover r
    have hle := hturn.lastToken_le
    rw [history, List.flatMap_cons, List.map_append]
    refine ⟨List.pairwise_append.mpr ⟨?_, hlater, ?_⟩, ?_⟩
    · have hlen := hturn.armings_length
      rw [← armings_eq] at hlen
      cases harm : (e.reportOf r).armings with
      | nil => simp
      | cons a rest =>
        rw [harm, List.length_cons] at hlen
        have hrest : rest = [] := List.length_eq_zero_iff.mp (by omega)
        simp [hrest]
    · intro m hm n hn
      obtain ⟨⟨pid, token⟩, hmem, rfl⟩ := List.mem_map.mp hm
      obtain ⟨-, hlast, -⟩ := h.arming hmem
      have hn' := hbound n hn
      simp only
      omega
    · intro n hn
      rcases List.mem_append.mp hn with hn | hn
      · obtain ⟨⟨pid, token⟩, hmem, rfl⟩ := List.mem_map.mp hn
        obtain ⟨htoken, -⟩ := h.arming hmem
        simp only
        omega
      · have hn' := hbound n hn
        omega

/-- No request of `rs`, taken up one after the other, supersedes a boost of `pid`. -/
def Undisturbed (e : Engine) (pid : Int) (rs : List Request) : Prop :=
  ∀ sofar next rest, rs = sofar ++ next :: rest → ¬ (sofar.foldl Engine.after e).Supersedes pid next

theorem Sound.lastToken_le_foldl (rs : List Request) (h : e.Sound) :
    e.lastToken ≤ (rs.foldl Engine.after e).lastToken := by
  induction rs generalizing e with
  | nil => exact Nat.le_refl _
  | cons r rs ih => exact Nat.le_trans (h.turnover r).lastToken_le (ih (h.after r))

/-- A boost under an old token has waited all along, on the same process: no request has ended it. -/
theorem Sound.held (rs : List Request) (h : e.Sound) (hb : (rs.foldl Engine.after e).boost? pid = some b)
    (hle : b.token ≤ e.lastToken) :
    (∀ sofar rest, rs = sofar ++ rest →
      (sofar.foldl Engine.after e).lease? pid = (rs.foldl Engine.after e).lease? pid) ∧
    ∀ sofar next rest, rs = sofar ++ next :: rest →
      ¬ (sofar.foldl Engine.after e).Ends pid next := by
  induction rs generalizing e with
  | nil =>
    refine ⟨?_, fun sofar next rest hrs => by simp at hrs⟩
    intro sofar rest hrs
    obtain ⟨rfl, -⟩ := List.append_eq_nil_iff.mp hrs.symm
    rfl
  | cons r rs ih =>
    have hturn := h.turnover r
    obtain ⟨hsame, hno⟩ := ih (h.after r) hb (Nat.le_trans hle hturn.lastToken_le)
    have hstart := hsame [] rs rfl
    have hnext : (e.after r).boost? pid = some b := (boost?_congr hstart).trans hb
    rcases hturn.waiting hnext with ⟨hkept, hfirst⟩ | ⟨htoken, -⟩
    · constructor
      · intro sofar rest hrs
        cases sofar with
        | nil => exact hkept.symm.trans hstart
        | cons r' sofar =>
          obtain ⟨rfl, htail⟩ := List.cons.inj hrs
          exact hsame sofar rest htail
      · intro sofar next rest hrs
        cases sofar with
        | nil =>
          obtain ⟨rfl, -⟩ := List.cons.inj hrs
          exact hfirst
        | cons r' sofar =>
          obtain ⟨rfl, htail⟩ := List.cons.inj hrs
          exact hno sofar next rest htail
    · omega

theorem run_armed {settings : Settings} (requests : List Request)
    (hb : (run settings requests).boost? pid = some b) :
    ∃ before r between, requests = before ++ r :: between ∧
      (pid, b.token) ∈ ((run settings before).reportOf r).armings := by
  induction requests using List.reverseRecOn with
  | nil => cases hb
  | append_singleton requests r ih =>
    rw [run_concat] at hb
    rcases ((run_sound settings requests).turnover r).waiting hb with ⟨hkept, -⟩ | ⟨-, -, hmem⟩
    · have hbefore : (run settings requests).boost? pid = some b := (boost?_congr hkept).symm.trans hb
      obtain ⟨before, r', between, rfl, harm⟩ := ih hbefore
      exact ⟨before, r', between ++ [r], by simp, harm⟩
    · refine ⟨requests, r, [], rfl, ?_⟩
      rw [armings_eq]
      exact hmem

/-! ### Expiry -/

variable {settings : Settings} {before between : List Request}

theorem run_expires_once (between : List Request)
    (hacc : (run settings before).Accepts (.expireBoost pid token)) :
    ¬ (run settings (before ++ .expireBoost pid token :: between)).Accepts
      (.expireBoost pid token) := by
  intro hagain
  have htokened := run_tokened settings before
  obtain ⟨b, hb, htoken⟩ := htokened.accepts_iff.mp hacc
  obtain ⟨b', hb', htoken'⟩ := (run_tokened settings _).accepts_iff.mp hagain
  have hle := htokened.le pid b hb
  rw [run_append] at hb'
  -- the boost would have been held over its own expiry
  obtain ⟨-, hno⟩ :=
    (run_sound settings before).held (.expireBoost pid token :: between) hb' (by omega)
  exact hno [] (.expireBoost pid token) between rfl (Or.inr ⟨token, rfl, hacc⟩)

theorem run_undisturbed (harm : (pid, token) ∈ ((run settings before).reportOf r).armings)
    (hacc : (run settings (before ++ r :: between)).Accepts (.expireBoost pid token)) :
    (∀ sofar rest, between = sofar ++ rest → (run settings (before ++ r :: sofar)).lease? pid =
      (run settings (before ++ r :: between)).lease? pid) ∧
    ((run settings before).after r).Undisturbed pid between := by
  have hruns : ∀ rs, run settings (before ++ r :: rs) =
      rs.foldl Engine.after ((run settings before).after r) := fun rs => run_append _ _ _
  have hsound := run_sound settings before
  obtain ⟨-, hlast, -⟩ := hsound.arming harm
  obtain ⟨b, hb, rfl⟩ := (run_tokened settings _).accepts_iff.mp hacc
  rw [hruns] at hb
  obtain ⟨hsame, hno⟩ := (hsound.after r).held between hb (Nat.le_of_eq hlast.symm)
  refine ⟨?_, fun sofar next rest hrest hsup => hno sofar next rest hrest (Or.inl hsup)⟩
  intro sofar rest hrest
  rw [hruns, hruns]
  exact hsame sofar rest hrest

theorem run_reverts (requests : List Request)
    (hp : (run settings requests).processes.get? pid = some p) (hb : p.boost = some b) :
    ∃ undo, b.reason.undo? = some undo ∧ (run settings requests).Reverts
      ((run settings requests).after (.expireBoost pid b.token)) p undo := by
  obtain ⟨report, hok⟩ := (run_tokened settings requests).accepts_iff.mpr
    ⟨b, (boost?_of_get? hp).trans hb, rfl⟩
  obtain ⟨p', b', undo, hp', hb', -, hundo, hafter, -⟩ := expireBoost_ok hok
  obtain rfl := Option.some.inj (hp.symm.trans hp')
  obtain rfl := Option.some.inj (hb.symm.trans hb')
  refine ⟨undo, hundo, ?_⟩
  have hafter' : (run settings requests).after (.expireBoost pid b.token) = _ := hafter
  rw [hafter']
  exact (run_sound settings requests).reverts_putProcess hp undo

/-- What tokens guarantee in every run under `settings`. -/
structure SafeTokens (settings : Settings) : Prop where
  increasing : ∀ requests,
    ((((new settings).history requests).flatMap StepReport.armings).map Prod.snd).Pairwise (· < ·)
  accepted_iff : ∀ requests pid token,
    (run settings requests).Accepts (.expireBoost pid token) ↔
      ∃ p b, (run settings requests).processes.get? pid = some p ∧ p.boost = some b ∧
        b.token = token
  refused : ∀ requests pid token, ¬ (run settings requests).Accepts (.expireBoost pid token) →
    (run settings requests).after (.expireBoost pid token) = run settings requests
  once : ∀ before between pid token, (run settings before).Accepts (.expireBoost pid token) →
    ¬ (run settings (before ++ .expireBoost pid token :: between)).Accepts (.expireBoost pid token)
  armed : ∀ requests pid token, (run settings requests).Accepts (.expireBoost pid token) →
    ∃ before r between, requests = before ++ r :: between ∧
      (pid, token) ∈ ((run settings before).reportOf r).armings
  /-- From the arming to the expiry the process is the same, with that boost, and nothing supersedes
  it. -/
  undisturbed : ∀ before r between pid token,
    (pid, token) ∈ ((run settings before).reportOf r).armings →
    (run settings (before ++ r :: between)).Accepts (.expireBoost pid token) →
    (∀ sofar rest, between = sofar ++ rest → (run settings (before ++ r :: sofar)).lease? pid =
      (run settings (before ++ r :: between)).lease? pid) ∧
    ((run settings before).after r).Undisturbed pid between
  reverts : ∀ requests pid p b, (run settings requests).processes.get? pid = some p →
    p.boost = some b → ∃ undo, b.reason.undo? = some undo ∧
      (run settings requests).Reverts
        ((run settings requests).after (.expireBoost pid b.token)) p undo

theorem run_safeTokens (settings : Settings) : SafeTokens settings := by
  have htokened := run_tokened settings
  refine ⟨fun requests => ((sound_new settings).history_tokens requests).1, ?_,
    fun requests _ _ => (run_sound settings requests).after_of_refused, fun _ between _ _ => run_expires_once between, ?_,
    fun _ _ _ _ _ => run_undisturbed, fun requests _ _ _ => run_reverts requests⟩
  · intro requests pid token
    rw [(htokened requests).accepts_iff]
    constructor
    · rintro ⟨b, hb, htoken⟩
      obtain ⟨p, hp, hpb⟩ := boost?_eq_some_iff.mp hb
      exact ⟨p, b, hp, hpb, htoken⟩
    · rintro ⟨p, b, hp, hpb, htoken⟩
      exact ⟨b, boost?_eq_some_iff.mpr ⟨p, hp, hpb⟩, htoken⟩
  · intro requests pid token hacc
    obtain ⟨b, hb, rfl⟩ := (htokened requests).accepts_iff.mp hacc
    exact run_armed requests hb

end Engine

end MemoryArbiter
