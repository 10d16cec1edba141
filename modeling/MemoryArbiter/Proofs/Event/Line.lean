import MemoryArbiter.Event.Record
import MemoryArbiter.Proofs.Json.Blanks
import MemoryArbiter.Proofs.Json.Members
import MemoryArbiter.Proofs.Json.RoundTrip

/-! # Lines of events

A line is read as an event if it is a JSON text of an object with the members of the event, in any
order and with any members of other names between them.  How the text is spelled does not matter.
-/

namespace MemoryArbiter

open Document Json

/-! ### The members of an event -/

/-- The ids of the event fit 32 bits. -/
def Event.Fits (ev : Event) : Prop :=
  ∀ id ∈ ev.pid :: ev.targetUid :: (ev.callerPid.toList ++ ev.callerUid.toList),
    Text.minInt32 ≤ id ∧ id ≤ Text.maxInt32

/-- Without a caller the member is null or left out. -/
inductive EncodesCaller : Option Int → Option Json → Prop
  | id (i : Int) : EncodesCaller (some i) (some (.ofInt i))
  | null : EncodesCaller none (some .null)
  | omitted : EncodesCaller none none

/-- An empty name may be left out. -/
inductive EncodesBundleName : String → Option Json → Prop
  | name (s : String) : EncodesBundleName s (some (.ofString s))
  | omitted : EncodesBundleName "" none

/-- The members with the names of an event are those of `ev`, in some order. -/
inductive Event.Encodes (ev : Event) (members : List (String × Json)) : Prop
  | mk {callerPid callerUid bundleName : Option Json} :
      EncodesCaller ev.callerPid callerPid → EncodesCaller ev.callerUid callerUid →
      EncodesBundleName ev.bundleName bundleName →
      (members.filter fun m => Event.memberNames.contains m.1).Perm
        (present Event.memberNames [some (.ofInt ev.pid), callerPid, callerUid,
          some (.ofInt ev.targetUid), bundleName, some (.ofString ev.reason.name)]) →
      Event.Encodes ev members

theorem int32?_ofInt {i : Int} (h : Text.minInt32 ≤ i ∧ i ≤ Text.maxInt32) :
    int32? (Json.ofInt i) = some i := by
  have hinteger : Document.integer? (Json.ofInt i) = some i := integer?_ofInt h.1 h.2
  rw [int32?, hinteger]
  simp [h]

theorem EncodesCaller.read {caller : Option Int} {slot : Option Json}
    (h : EncodesCaller caller slot)
    (hfits : ∀ id ∈ caller.toList, Text.minInt32 ≤ id ∧ id ≤ Text.maxInt32) :
    Document.optional none (nullable? int32?) slot = some caller := by
  cases h with
  | id i =>
    have hid := int32?_ofInt (hfits i (by simp))
    have hnull : Document.isNull (Json.ofInt i) = false := rfl
    simp [Document.optional, nullable?, hnull, hid]
  | null => rfl
  | omitted => rfl

theorem EncodesBundleName.read {name : String} {slot : Option Json}
    (h : EncodesBundleName name slot) : Document.optional "" text? slot = some name := by
  cases h <;> rfl

theorem Event.ofJson?_of_encodes {ev : Event} {members : List (String × Json)} (hfits : ev.Fits)
    (h : ev.Encodes members) : Event.ofJson? (.ofMembers members) = some ev := by
  obtain ⟨hcallerPid, hcallerUid, hbundleName, hperm⟩ := h
  have hmembers := members?_of_perm (by decide) rfl hperm
  have hpid := int32?_ofInt (hfits ev.pid (by simp))
  have htargetUid := int32?_ofInt (hfits ev.targetUid (by simp))
  have hcallerPid := hcallerPid.read fun id hid => hfits id (by simp [hid])
  have hcallerUid := hcallerUid.read fun id hid => hfits id (by simp [hid])
  have hreason : Reason.ofJson? (Json.ofString ev.reason.name) = some ev.reason :=
    Reason.ofName?_name ev.reason
  unfold Event.ofJson?
  simp only [hmembers, required, Option.bind_some, hpid, hcallerPid, hcallerUid, htargetUid,
    hbundleName.read, hreason]
  rfl

/-! ### Lines -/

/-- Blanks around a JSON text do not matter, and no JSON text is skipped. -/
theorem EventLine.read_of_read? {line : List Char} {v : Json} {ev : Event}
    (hread : Json.read? line = some v) (hv : Event.ofJson? v = some ev) :
    EventLine.read line = .event ev := by
  have htrim := read?_trim hread
  have hskipped : isSkippedLine line = false := by
    unfold isSkippedLine
    split
    · next h => exact nomatch h ▸ htrim
    · next c rest h =>
      rw [beq_eq_false_iff_ne]
      rintro rfl
      exact nomatch h ▸ htrim
  unfold EventLine.read
  rw [hskipped, htrim, Option.bind_some, hv]
  rfl

/-- However an event is encoded and written, its line is read as the event. -/
theorem EventLine.read_written {ev : Event} {members : List (String × Json)} {line : List Char}
    (hfits : ev.Fits) (hmembers : ev.Encodes members)
    (hline : (Json.ofMembers members).Writes line) : EventLine.read line = .event ev :=
  EventLine.read_of_read? (read?_writes hline) (Event.ofJson?_of_encodes hfits hmembers)

/-- The reason first, a caller that is null, no bundle name, and a member that is passed over. -/
theorem EventLine.read_written_reordered :
    EventLine.read (Json.ofMembers
      [("reason", .ofString "FREEZE"),
        ("note", .array [.object [(some "pid", .null)], .text none]),
        ("pid", .ofInt 7), ("caller_pid", .null), ("caller_uid", .ofInt (-2147483648)),
        ("target_uid", .ofInt 1)]).chars =
      .event { pid := 7, callerUid := some (-2147483648), targetUid := 1, reason := .freeze } := by
  refine EventLine.read_written ?_ (.mk .null (.id _) .omitted ?_)
    (writes_chars (numeric_ofMembers ?_))
  · simp only [Event.Fits]
    decide
  · exact (List.perm_append_singleton _ _).symm
  · simp only [List.forall_mem_cons, List.not_mem_nil, false_implies, implies_true, and_true]
    exact ⟨numeric_ofString _, fun n hn => by simp [tokens, itemTokens, memberTokens] at hn,
      numeric_ofInt _, numeric_null, numeric_ofInt _, numeric_ofInt _⟩

example : EventLine.read
    ('{' :: ("\"reason\" : \"CREATE_PROCESS\", \"p\\u0069d\": 7, \"target_uid\": 1,
      \"bundle_name\": \"\\ud83d\\ude00\"".toList ++ ['}', '\n'])) =
    .event { pid := 7, targetUid := 1, bundleName := "😀", reason := .createProcess } := by
  decide +kernel

/-! ### The event as it is written -/

theorem Event.encodes_toJson (ev : Event) :
    ∃ members, ev.toJson = .ofMembers members ∧ ev.Encodes members := by
  unfold Event.toJson
  rw [Reason.recordName_eq_name]
  obtain ⟨pid, callerPid, callerUid, targetUid, bundleName, reason⟩ := ev
  cases callerPid with
  | none =>
    cases callerUid with
    | none => exact ⟨_, rfl, .mk .null .null (.name _) (.refl _)⟩
    | some j => exact ⟨_, rfl, .mk .null (.id j) (.name _) (.refl _)⟩
  | some i =>
    cases callerUid with
    | none => exact ⟨_, rfl, .mk (.id i) .null (.name _) (.refl _)⟩
    | some j => exact ⟨_, rfl, .mk (.id i) (.id j) (.name _) (.refl _)⟩

theorem Event.numeric_toJson (ev : Event) : ev.toJson.Numeric := by
  obtain ⟨pid, callerPid, callerUid, targetUid, bundleName, reason⟩ := ev
  refine numeric_ofMembers ?_
  simp only [List.forall_mem_cons, List.not_mem_nil, false_implies, implies_true, and_true]
  refine ⟨numeric_ofInt pid, ?_, ?_, numeric_ofInt targetUid, numeric_ofString bundleName,
    numeric_ofString reason.recordName⟩
  · cases callerPid <;> first | exact numeric_null | exact numeric_ofInt _
  · cases callerUid <;> first | exact numeric_null | exact numeric_ofInt _

/-- What is written for an event is read as the event. -/
theorem EventLine.read_toJson {ev : Event} (hfits : ev.Fits) :
    EventLine.read ev.toJson.chars = .event ev := by
  obtain ⟨members, hjson, hmembers⟩ := ev.encodes_toJson
  refine EventLine.read_of_read? (read?_chars ev.numeric_toJson) ?_
  rw [hjson]
  exact Event.ofJson?_of_encodes hfits hmembers

end MemoryArbiter
