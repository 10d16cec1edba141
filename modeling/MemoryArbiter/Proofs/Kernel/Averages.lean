import MemoryArbiter.Kernel.Stall
import MemoryArbiter.Proofs.Text.Words
import Mathlib.Logic.Relation

/-! # The averages of a stall file

The averages that are read are those on the last lines of the two kinds, unless a value on any line
is no number.  Lines of other kinds, fields behind an average, the runs of blanks between the fields
and the endings of the lines do not matter.
-/

namespace MemoryArbiter

namespace Stall

open Text

variable {line line' kind value contents : List Char} {ls ls' : List (List Char)} {v : Binary64}

/-! ### The average of a line -/

def averageKey : List Char := "avg10=".toList

/-- The line's first word is its kind, and the first later word that begins with the key goes on
with the value. -/
def HasAverage (line kind value : List Char) : Prop :=
  ∃ fields more, words line = kind :: (fields ++ (averageKey ++ value) :: more) ∧
    ∀ field ∈ fields, ¬ averageKey <+: field

/-- The kind of the line and the value of its average. -/
def average? (line : List Char) : Option (List Char × List Char) :=
  match words line with
  | [] => none
  | kind :: fields => (averageField? fields).map fun value => (kind, value)

theorem averageField?_eq_some_iff {fields : List (List Char)} :
    averageField? fields = some value ↔ ∃ before more,
      fields = before ++ (averageKey ++ value) :: more ∧
        ∀ field ∈ before, ¬ averageKey <+: field :=
  findSome?_after?_eq_some_iff

theorem average?_eq_some_iff : average? line = some (kind, value) ↔ HasAverage line kind value := by
  unfold average? HasAverage
  cases words line with
  | nil => simp
  | cons first fields =>
    rw [Option.map_eq_some_iff]
    constructor
    · rintro ⟨w, hw, heq⟩
      obtain ⟨rfl, rfl⟩ := Prod.mk.inj heq
      obtain ⟨before, more, rfl, hbefore⟩ := averageField?_eq_some_iff.mp hw
      exact ⟨before, more, rfl, hbefore⟩
    · rintro ⟨before, more, hwords, hbefore⟩
      obtain ⟨rfl, rfl⟩ := List.cons.inj hwords
      exact ⟨value, averageField?_eq_some_iff.mpr ⟨before, more, rfl, hbefore⟩, rfl⟩

/-! ### One line -/

theorem line_of_none (h : average? line = none) (a : Averages) : a.line line = .ok a := by
  unfold average? at h
  unfold Averages.line
  cases hwords : words line with
  | nil => rfl
  | cons kind fields =>
    rw [hwords, Option.map_eq_none_iff] at h
    simp only [h]

theorem line_of_average (h : average? line = some (kind, value)) (a : Averages) :
    a.line line = (Binary64.read? value).elim (.error value) fun v => .ok (a.record kind v) := by
  unfold average? at h
  unfold Averages.line
  cases hwords : words line with
  | nil => rw [hwords] at h; cases h
  | cons first fields =>
    rw [hwords, Option.map_eq_some_iff] at h
    obtain ⟨w, hw, heq⟩ := h
    obtain ⟨rfl, rfl⟩ := Prod.mk.inj heq
    cases hread : Binary64.read? w <;> simp [hw, hread]

/-- A line counts by its kind and its average only. -/
theorem line_congr (h : average? line = average? line') (a : Averages) :
    a.line line = a.line line' := by
  cases haverage : average? line with
  | none => rw [line_of_none haverage, line_of_none (h.symm.trans haverage)]
  | some average => rw [line_of_average haverage, line_of_average (h.symm.trans haverage)]

/-- The value of the line's average is a number, if the line has one. -/
def Readable (line : List Char) : Prop :=
  ∀ kind value, HasAverage line kind value → (Binary64.read? value).isSome = true

/-- The average of the line, if it is one of the kind. -/
def valueOf? (kind line : List Char) : Option Binary64 :=
  (average? line).bind fun average => if average.1 = kind then Binary64.read? average.2 else none

theorem valueOf?_eq_some_iff : valueOf? kind line = some v ↔
    ∃ value, HasAverage line kind value ∧ Binary64.read? value = some v := by
  unfold valueOf?
  rw [Option.bind_eq_some_iff]
  constructor
  · rintro ⟨⟨first, value⟩, haverage, hvalue⟩
    obtain ⟨hkind, hread⟩ := Option.ite_none_right_eq_some.mp hvalue
    subst hkind
    exact ⟨value, average?_eq_some_iff.mp haverage, hread⟩
  · rintro ⟨value, haverage, hread⟩
    exact ⟨(kind, value), average?_eq_some_iff.mpr haverage, by simpa using hread⟩

theorem valueOf?_eq_none_iff (h : Readable line) :
    valueOf? kind line = none ↔ ∀ value, ¬ HasAverage line kind value := by
  rw [Option.eq_none_iff_forall_ne_some]
  constructor
  · intro hnone value haverage
    obtain ⟨v, hv⟩ := Option.isSome_iff_exists.mp (h kind value haverage)
    exact hnone v (valueOf?_eq_some_iff.mpr ⟨value, haverage, hv⟩)
  · intro hnone v hv
    obtain ⟨value, haverage, -⟩ := valueOf?_eq_some_iff.mp hv
    exact hnone value haverage

theorem record_eq (a : Averages) (kind : List Char) (v : Binary64) : a.record kind v =
    ⟨(if kind = "some".toList then some v else none).or a.some?,
      (if kind = "full".toList then some v else none).or a.full?⟩ := by
  have hne : "some".toList ≠ "full".toList := by decide
  unfold Averages.record
  by_cases hsome : kind = "some".toList
  · rw [if_pos hsome, if_pos hsome, if_neg fun hfull => hne (hsome.symm.trans hfull)]
    rfl
  · rw [if_neg hsome, if_neg hsome]
    by_cases hfull : kind = "full".toList
    · rw [if_pos hfull, if_pos hfull]
      rfl
    · rw [if_neg hfull, if_neg hfull]
      rfl

theorem line_of_readable (h : Readable line) (a : Averages) :
    a.line line = .ok ⟨(valueOf? "some".toList line).or a.some?,
      (valueOf? "full".toList line).or a.full?⟩ := by
  unfold valueOf?
  cases haverage : average? line with
  | none => exact line_of_none haverage a
  | some average =>
    obtain ⟨kind, value⟩ := average
    obtain ⟨v, hv⟩ := Option.isSome_iff_exists.mp (h kind value (average?_eq_some_iff.mp haverage))
    simp only [line_of_average haverage, hv, record_eq, Option.elim_some, Option.bind_some]

/-! ### All lines -/

/-- The first average that is no number has this value. -/
def FirstBad (ls : List (List Char)) (value : List Char) : Prop :=
  ∃ before line after kind, ls = before ++ line :: after ∧ (∀ l ∈ before, Readable l) ∧
    HasAverage line kind value ∧ Binary64.read? value = none

/-- The last average of the kind. -/
def Latest (kind : List Char) (ls : List (List Char)) (v : Binary64) : Prop :=
  ∃ before line after value, ls = before ++ line :: after ∧ HasAverage line kind value ∧
    Binary64.read? value = some v ∧ ∀ l ∈ after, ∀ w, ¬ HasAverage l kind w

def latest? (kind : List Char) (ls : List (List Char)) : Option Binary64 :=
  ls.reverse.findSome? (valueOf? kind)

theorem latest?_cons (kind line : List Char) (ls : List (List Char)) :
    latest? kind (line :: ls) = (latest? kind ls).or (valueOf? kind line) := by
  simp [latest?, List.findSome?_append]

theorem latest?_eq_none_iff (h : ∀ l ∈ ls, Readable l) :
    latest? kind ls = none ↔ ∀ l ∈ ls, ∀ value, ¬ HasAverage l kind value := by
  unfold latest?
  rw [List.findSome?_eq_none_iff]
  constructor
  · intro hnone l hl
    exact (valueOf?_eq_none_iff (h l hl)).mp (hnone l (List.mem_reverse.mpr hl))
  · intro hnone l hl
    have hl := List.mem_reverse.mp hl
    exact (valueOf?_eq_none_iff (h l hl)).mpr (hnone l hl)

theorem latest?_eq_some_iff (h : ∀ l ∈ ls, Readable l) :
    latest? kind ls = some v ↔ Latest kind ls v := by
  unfold latest?
  rw [List.findSome?_eq_some_iff]
  constructor
  · rintro ⟨after, line, before, hreverse, hline, hafter⟩
    obtain ⟨value, haverage, hread⟩ := valueOf?_eq_some_iff.mp hline
    have hls : ls = before.reverse ++ line :: after.reverse := by
      rw [← List.reverse_reverse ls, hreverse]
      simp
    refine ⟨before.reverse, line, after.reverse, value, hls, haverage, hread, fun l hl => ?_⟩
    have hmem : l ∈ ls := hls ▸ List.mem_append_right _ (List.mem_cons_of_mem line hl)
    exact (valueOf?_eq_none_iff (h l hmem)).mp (hafter l (List.mem_reverse.mp hl))
  · rintro ⟨before, line, after, value, rfl, haverage, hread, hafter⟩
    refine ⟨after.reverse, line, before.reverse, by simp,
      valueOf?_eq_some_iff.mpr ⟨value, haverage, hread⟩, fun l hl => ?_⟩
    have hl := List.mem_reverse.mp hl
    have hmem : l ∈ before ++ line :: after :=
      List.mem_append_right _ (List.mem_cons_of_mem line hl)
    exact (valueOf?_eq_none_iff (h l hmem)).mpr (hafter l hl)

theorem foldlM_of_readable (h : ∀ l ∈ ls, Readable l) (a : Averages) :
    ls.foldlM Averages.line a = .ok ⟨(latest? "some".toList ls).or a.some?,
      (latest? "full".toList ls).or a.full?⟩ := by
  induction ls generalizing a with
  | nil => rfl
  | cons line ls ih =>
    obtain ⟨hline, hls⟩ := List.forall_mem_cons.mp h
    rw [List.foldlM_cons, line_of_readable hline, latest?_cons, latest?_cons, Option.or_assoc,
      Option.or_assoc]
    exact ih hls _

theorem foldlM_of_firstBad (h : FirstBad ls value) (a : Averages) :
    ls.foldlM Averages.line a = .error value := by
  obtain ⟨before, line, after, kind, rfl, hbefore, haverage, hread⟩ := h
  have hline : ∀ b : Averages, b.line line = .error value := by
    intro b
    rw [line_of_average (average?_eq_some_iff.mpr haverage), hread]
    rfl
  rw [List.foldlM_append, foldlM_of_readable hbefore]
  simp only [List.foldlM_cons, hline]
  rfl

theorem readable_or_firstBad (ls : List (List Char)) :
    (∀ l ∈ ls, Readable l) ∨ ∃ value, FirstBad ls value := by
  induction ls with
  | nil => exact .inl nofun
  | cons line ls ih =>
    by_cases hline : Readable line
    · rcases ih with hls | ⟨value, before, bad, after, kind, rfl, hbefore, hbad⟩
      · exact .inl (List.forall_mem_cons.mpr ⟨hline, hls⟩)
      · exact .inr ⟨value, line :: before, bad, after, kind, rfl,
          List.forall_mem_cons.mpr ⟨hline, hbefore⟩, hbad⟩
    · obtain ⟨kind, hkind⟩ := Classical.not_forall.mp hline
      obtain ⟨value, hvalue⟩ := Classical.not_forall.mp hkind
      obtain ⟨haverage, hread⟩ := Classical.not_imp.mp hvalue
      exact .inr ⟨value, [], line, ls, kind, rfl, nofun, haverage,
        Option.not_isSome_iff_eq_none.mp hread⟩

/-! ### Edits that change nothing -/

/-- A line of another kind, or without an average, and its value is no bad one. -/
def Idle (line : List Char) : Prop :=
  ∀ kind value, HasAverage line kind value →
    kind ≠ "some".toList ∧ kind ≠ "full".toList ∧ (Binary64.read? value).isSome = true

inductive Edit : List (List Char) → List (List Char) → Prop
  | insert {line : List Char} (before behind : List (List Char)) : Idle line →
      Edit (before ++ behind) (before ++ line :: behind)
  | move {line : List Char} (before between behind : List (List Char)) : Idle line →
      Edit (before ++ line :: (between ++ behind)) (before ++ (between ++ line :: behind))
  /-- Another run of blanks within a line, or any at its start or its end. -/
  | blanks {bs bs' start rest : List Char} (before behind : List (List Char)) :
      (∀ c ∈ bs ++ bs', isBlank c = true) → (bs ≠ [] ∧ bs' ≠ []) ∨ start = [] ∨ rest = [] →
      Edit (before ++ (start ++ (bs ++ rest)) :: behind)
        (before ++ (start ++ (bs' ++ rest)) :: behind)
  /-- Other fields behind an average. -/
  | fields {line line' field : List Char} {start more more' : List (List Char)}
      (before behind : List (List Char)) : start ≠ [] → averageKey <+: field →
      words line = start ++ field :: more → words line' = start ++ field :: more' →
      Edit (before ++ line :: behind) (before ++ line' :: behind)

theorem line_of_idle (h : Idle line) (a : Averages) : a.line line = .ok a := by
  cases haverage : average? line with
  | none => exact line_of_none haverage a
  | some average =>
    obtain ⟨kind, value⟩ := average
    obtain ⟨hsome, hfull, hvalue⟩ := h kind value (average?_eq_some_iff.mp haverage)
    obtain ⟨v, hv⟩ := Option.isSome_iff_exists.mp hvalue
    rw [line_of_average haverage, hv, Option.elim_some, record_eq, if_neg hsome, if_neg hfull]
    rfl

theorem foldlM_append_idle (h : Idle line) (before behind : List (List Char)) (a : Averages) :
    (before ++ line :: behind).foldlM Averages.line a =
      (before ++ behind).foldlM Averages.line a := by
  rw [List.foldlM_append, List.foldlM_append]
  refine congrArg _ (funext fun b => ?_)
  rw [List.foldlM_cons, line_of_idle h]
  rfl

theorem foldlM_append_congr (h : average? line = average? line') (before behind : List (List Char))
    (a : Averages) : (before ++ line :: behind).foldlM Averages.line a =
      (before ++ line' :: behind).foldlM Averages.line a := by
  rw [List.foldlM_append, List.foldlM_append]
  refine congrArg _ (funext fun b => ?_)
  rw [List.foldlM_cons, List.foldlM_cons, line_congr h]

theorem average?_of_words (h : words line = words line') : average? line = average? line' := by
  unfold average?
  rw [h]

theorem average?_of_fields {start more more' : List (List Char)} {field : List Char}
    (hstart : start ≠ []) (hfield : averageKey <+: field)
    (hline : words line = start ++ field :: more)
    (hline' : words line' = start ++ field :: more') : average? line = average? line' := by
  obtain ⟨kind, fields, rfl⟩ := List.exists_cons_of_ne_nil hstart
  obtain ⟨value, rfl⟩ := hfield
  have haverage : ∀ more, averageField? (fields ++ (averageKey ++ value) :: more) =
      (averageField? fields).or (some value) := by
    intro more
    have hafter : after? "avg10=".toList (averageKey ++ value) = some value :=
      after?_append averageKey value
    unfold averageField?
    rw [List.findSome?_append, List.findSome?_cons, hafter]
  simp only [average?, hline, hline', List.cons_append, haverage]

theorem Edit.foldlM_eq (h : Edit ls ls') (a : Averages) :
    ls'.foldlM Averages.line a = ls.foldlM Averages.line a := by
  cases h with
  | insert before behind hidle => exact foldlM_append_idle hidle before behind a
  | move before between behind hidle =>
    rw [foldlM_append_idle hidle, ← List.append_assoc, foldlM_append_idle hidle, List.append_assoc]
  | @blanks bs bs' start rest before behind hblanks hruns =>
    obtain ⟨hbs, hbs'⟩ := List.forall_mem_append.mp hblanks
    have hwords : words (start ++ (bs' ++ rest)) = words (start ++ (bs ++ rest)) := by
      rw [words_append_blanks_append hbs (hruns.imp_left And.left),
        words_append_blanks_append hbs' (hruns.imp_left And.right)]
    exact foldlM_append_congr (average?_of_words hwords) before behind a
  | fields before behind hstart hfield hline hline' =>
    exact foldlM_append_congr (average?_of_fields hstart hfield hline' hline) before behind a

theorem foldlM_of_edits (h : Relation.EqvGen Edit ls ls') (a : Averages) :
    ls'.foldlM Averages.line a = ls.foldlM Averages.line a := by
  induction h with
  | rel _ _ hedit => exact hedit.foldlM_eq a
  | refl _ => rfl
  | symm _ _ _ ih => exact ih.symm
  | trans _ _ _ _ _ ih ih' => exact ih'.trans ih

/-! ### The text -/

theorem foldlM_lines_of_not_mem (hline : '\n' ∉ line) (a : Averages) :
    (lines line).foldlM Averages.line a = [line].foldlM Averages.line a := by
  rw [lines_of_not_mem hline]
  cases line <;> rfl

theorem foldlM_lines_append (hline : '\n' ∉ line) (rest : List Char) (a : Averages) :
    (lines (line ++ '\n' :: rest)).foldlM Averages.line a =
      (line :: lines rest).foldlM Averages.line a := by
  rw [lines_line_append hline, List.foldlM_cons, List.foldlM_cons,
    line_congr (average?_of_words (words_closeLine line))]

theorem foldlM_of_laidOut {text : List Char} (h : LaidOut ls text) (a : Averages) :
    (lines text).foldlM Averages.line a = ls.foldlM Averages.line a := by
  induction h generalizing a with
  | nil => rfl
  | last hline => exact foldlM_lines_of_not_mem hline a
  | @line line ending text ls hline hending _ ih =>
    have hfirst : (lines (line ++ (ending ++ text))).foldlM Averages.line a =
        (line :: lines text).foldlM Averages.line a := by
      rcases hending with rfl | rfl
      · exact foldlM_lines_append hline text a
      · have hlonger : '\n' ∉ line ++ ['\r'] := by simp [hline]
        have hwords := average?_of_words (words_append_return line)
        rw [List.cons_append, List.singleton_append, List.append_cons,
          foldlM_lines_append hlonger, List.foldlM_cons, List.foldlM_cons, line_congr hwords]
    rw [hfirst, List.foldlM_cons, List.foldlM_cons]
    exact congrArg _ (funext ih)

/-! ### The reader -/

theorem read_of_firstBad (h : FirstBad (lines contents) value) :
    read contents = .error ("bad avg10 value: " ++ String.ofList value) := by
  unfold read
  rw [foldlM_of_firstBad h]
  rfl

theorem read_of_readable (h : ∀ l ∈ lines contents, Readable l) :
    read contents = (latest? "some".toList (lines contents)).elim (.error "missing 'some' line")
      fun v => .ok ⟨v, (latest? "full".toList (lines contents)).getD Binary64.zero⟩ := by
  unfold read
  rw [foldlM_of_readable h]
  simp only [Option.or_none]
  cases latest? "some".toList (lines contents) <;> rfl

theorem read_eq_error_iff {reason : String} : read contents = .error reason ↔
    (∃ value, FirstBad (lines contents) value ∧
      reason = "bad avg10 value: " ++ String.ofList value) ∨
    (∀ l ∈ lines contents, Readable l) ∧
      (∀ l ∈ lines contents, ∀ value, ¬ HasAverage l "some".toList value) ∧
      reason = "missing 'some' line" := by
  constructor
  · intro h
    rcases readable_or_firstBad (lines contents) with hreadable | ⟨value, hbad⟩
    · rw [read_of_readable hreadable] at h
      cases hsome : latest? "some".toList (lines contents) with
      | none =>
        rw [hsome] at h
        exact .inr ⟨hreadable, (latest?_eq_none_iff hreadable).mp hsome,
          (Except.error.inj h).symm⟩
      | some v =>
        rw [hsome] at h
        cases h
    · rw [read_of_firstBad hbad] at h
      exact .inl ⟨value, hbad, (Except.error.inj h).symm⟩
  · rintro (⟨value, hbad, rfl⟩ | ⟨hreadable, hnone, rfl⟩)
    · exact read_of_firstBad hbad
    · rw [read_of_readable hreadable, (latest?_eq_none_iff hreadable).mpr hnone]
      rfl

theorem readable_of_read {stall : Stall} (h : read contents = .ok stall) :
    ∀ l ∈ lines contents, Readable l := by
  rcases readable_or_firstBad (lines contents) with hreadable | ⟨value, hbad⟩
  · exact hreadable
  · exact nomatch (read_of_firstBad hbad).symm.trans h

theorem read_eq_ok_iff {stall : Stall} : read contents = .ok stall ↔
    (∀ l ∈ lines contents, Readable l) ∧
      Latest "some".toList (lines contents) stall.someAvg10 ∧
      (Latest "full".toList (lines contents) stall.fullAvg10 ∨
        (∀ l ∈ lines contents, ∀ value, ¬ HasAverage l "full".toList value) ∧
          stall.fullAvg10 = Binary64.zero) := by
  constructor
  · intro h
    have hreadable := readable_of_read h
    rw [read_of_readable hreadable] at h
    rw [← latest?_eq_some_iff hreadable, ← latest?_eq_some_iff hreadable,
      ← latest?_eq_none_iff hreadable]
    refine ⟨hreadable, ?_⟩
    cases hsome : latest? "some".toList (lines contents) with
    | none =>
      rw [hsome] at h
      cases h
    | some v =>
      rw [hsome] at h
      obtain rfl := Except.ok.inj h
      cases latest? "full".toList (lines contents) with
      | none => exact ⟨rfl, .inr ⟨rfl, rfl⟩⟩
      | some w => exact ⟨rfl, .inl rfl⟩
  · rintro ⟨hreadable, hsome, hfull⟩
    rw [← latest?_eq_some_iff hreadable] at hsome
    rw [← latest?_eq_some_iff hreadable, ← latest?_eq_none_iff hreadable] at hfull
    rw [read_of_readable hreadable, hsome, Option.elim_some]
    rcases hfull with hfull | ⟨hfull, hzero⟩
    · rw [hfull, Option.getD_some]
    · rw [hfull, Option.getD_none, ← hzero]

theorem read_of_edits {text : List Char} (hedits : Relation.EqvGen Edit (lines contents) ls)
    (htext : LaidOut ls text) : read text = read contents := by
  unfold read
  rw [foldlM_of_laidOut htext, foldlM_of_edits hedits]

/-- What is read of a stall file. -/
structure ReadsAverages (contents : List Char) : Prop where
  laidOut : LaidOut (lines contents) contents
  fails : ∀ reason, read contents = .error reason ↔
    (∃ value, FirstBad (lines contents) value ∧
      reason = "bad avg10 value: " ++ String.ofList value) ∨
    (∀ l ∈ lines contents, Readable l) ∧
      (∀ l ∈ lines contents, ∀ value, ¬ HasAverage l "some".toList value) ∧
      reason = "missing 'some' line"
  succeeds : ∀ stall, read contents = .ok stall ↔
    (∀ l ∈ lines contents, Readable l) ∧
      Latest "some".toList (lines contents) stall.someAvg10 ∧
      (Latest "full".toList (lines contents) stall.fullAvg10 ∨
        (∀ l ∈ lines contents, ∀ value, ¬ HasAverage l "full".toList value) ∧
          stall.fullAvg10 = Binary64.zero)
  /-- Edits and their undoing, and other endings of the lines, change nothing. -/
  edits : ∀ ls text, Relation.EqvGen Edit (lines contents) ls → LaidOut ls text →
    read text = read contents

theorem reads_averages (contents : List Char) : ReadsAverages contents where
  laidOut := laidOut_lines contents
  fails _ := read_eq_error_iff
  succeeds _ := read_eq_ok_iff
  edits _ _ := read_of_edits

/-- A line of another kind in front, a tab for a blank, a further field and another line ending. -/
theorem reads_averages_edited :
    read "swap avg10=7\r\nsome\tavg10=1.5 total=3".toList = read "some avg10=1.5".toList := by
  let swap := "swap avg10=7".toList
  let tabbed := "some\tavg10=1.5".toList
  let longer := "some\tavg10=1.5 total=3".toList
  have hidle : Idle swap := by
    intro kind value h
    have haverage : average? swap = some ("swap".toList, "7".toList) := by decide
    have heq := haverage.symm.trans (average?_eq_some_iff.mpr h)
    obtain ⟨rfl, rfl⟩ := Prod.mk.inj (Option.some.inj heq)
    exact ⟨by decide, by decide, by decide⟩
  have hinsert : Edit ["some avg10=1.5".toList] [swap, "some avg10=1.5".toList] :=
    .insert [] _ hidle
  have hblanks : ∀ c ∈ [' '] ++ ['\t'], isBlank c = true := List.forall_mem_append.mpr
    ⟨List.forall_mem_singleton.mpr (by decide), List.forall_mem_singleton.mpr (by decide)⟩
  have htab : Edit [swap, "some avg10=1.5".toList] [swap, tabbed] :=
    @Edit.blanks [' '] ['\t'] "some".toList "avg10=1.5".toList [swap] [] hblanks
      (.inl ⟨by decide, by decide⟩)
  have hfield : Edit [swap, tabbed] [swap, longer] :=
    @Edit.fields tabbed longer "avg10=1.5".toList ["some".toList] [] ["total=3".toList] [swap] []
      (by decide) (by decide) (by decide) (by decide)
  have hedits : Relation.EqvGen Edit (lines "some avg10=1.5".toList) [swap, longer] :=
    .trans _ _ _ (.rel _ _ hinsert) (.trans _ _ _ (.rel _ _ htab) (.rel _ _ hfield))
  have htext : LaidOut [swap, longer] "swap avg10=7\r\nsome\tavg10=1.5 total=3".toList :=
    .line (by decide) (.inr rfl) (.last (by decide))
  exact (reads_averages _).edits _ _ hedits htext

end Stall

end MemoryArbiter
