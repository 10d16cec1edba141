import MemoryArbiter.Proofs.Json.Blanks
import MemoryArbiter.Script

/-! # Scripts line by line

What a line contributes does not depend on the lines around it, nor on how it ends.  So a script
that is put together from two reads as the two do, with the line numbers of the second shifted by
the lines of the first, and a failure names the first malformed line.
-/

namespace MemoryArbiter.Script

variable {a b cs line : List Char} {n m : Nat} {steps : List ScriptStep}

/-! ### One line -/

/-- Blanks only, or a comment behind blanks. -/
def Idle (line : List Char) : Prop :=
  ∃ blanks comment, line = blanks ++ comment ∧ (∀ c ∈ blanks, Text.isBlank c = true) ∧
    (comment = [] ∨ comment.head? = some '#')

theorem isSkippedLine_of_idle (h : Idle line) : isSkippedLine line = true := by
  obtain ⟨blanks, comment, rfl, hblanks, hcomment⟩ := h
  induction blanks with
  | nil =>
    cases comment with
    | nil => rfl
    | cons c comment =>
      obtain rfl : c = '#' := by simpa using hcomment
      rw [List.nil_append, isSkippedLine_cons (by decide), beq_self_eq_true]
  | cons c blanks ih =>
    rw [List.cons_append, isSkippedLine_blank_cons (hblanks c List.mem_cons_self)]
    exact ih fun d hd => hblanks d (List.mem_cons_of_mem c hd)

/-- The line is neither skipped nor a step. -/
def Malformed (line : List Char) : Prop :=
  isSkippedLine line = false ∧ ScriptStep.ofLine? line = none

/-- The steps of a line: none if it is skipped, else one. -/
def lineSteps? (line : List Char) : Option (List ScriptStep) :=
  if isSkippedLine line then some [] else (ScriptStep.ofLine? line).map fun step => [step]

theorem lineSteps?_eq_none_iff : lineSteps? line = none ↔ Malformed line := by
  unfold lineSteps? Malformed
  cases isSkippedLine line <;> simp

theorem lineSteps?_append_return (line : List Char) :
    lineSteps? (line ++ ['\r']) = lineSteps? line := by
  unfold lineSteps? isSkippedLine ScriptStep.ofLine?
  rw [Text.trim_append_blank (by decide), Json.read?_append_blank (by decide)]

theorem lineSteps?_closeLine (line : List Char) :
    lineSteps? (Text.closeLine line.reverse) = lineSteps? line := by
  rw [← List.reverse_reverse line]
  generalize line.reverse = read
  rw [List.reverse_reverse]
  unfold Text.closeLine
  split
  · rw [List.reverse_cons, lineSteps?_append_return]
  · rfl

theorem readLines_cons (n : Nat) (line : List Char) (rest : List (List Char)) :
    readLines n (line :: rest) = match lineSteps? line with
      | none => .error n
      | some steps => (readLines (n + 1) rest).map (steps ++ ·) := by
  unfold lineSteps?
  rw [readLines]
  cases isSkippedLine line with
  | true => cases readLines (n + 1) rest <;> rfl
  | false => cases ScriptStep.ofLine? line <;> rfl

theorem mapError_error (f : Nat → Nat) (n : Nat) :
    Except.mapError f (.error n : Except Nat (List ScriptStep)) = .error (f n) := rfl

theorem mapError_ok (f : Nat → Nat) (steps : List ScriptStep) :
    Except.mapError f (.ok steps) = .ok steps := rfl

theorem readLines_succ (n : Nat) (lines : List (List Char)) :
    readLines (n + 1) lines = (readLines n lines).mapError (· + 1) := by
  induction lines generalizing n with
  | nil => rfl
  | cons line rest ih =>
    rw [readLines_cons, readLines_cons, ih]
    cases lineSteps? line with
    | none => rfl
    | some steps => cases readLines (n + 1) rest <;> rfl

/-! ### The first line of a text -/

theorem read_line (hline : '\n' ∉ line) :
    read line = match lineSteps? line with
      | none => .error 1
      | some steps => .ok steps := by
  unfold read
  rw [Text.lines_of_not_mem hline]
  cases line with
  | nil => rfl
  | cons c line =>
    simp only [List.isEmpty_cons, Bool.false_eq_true, if_false, readLines_cons]
    cases lineSteps? (c :: line) with
    | none => rfl
    | some steps => simp [readLines, Except.map]

theorem read_line_append (hline : '\n' ∉ line) (rest : List Char) :
    read (line ++ '\n' :: rest) = match lineSteps? line with
      | none => .error 1
      | some steps => ((read rest).mapError (· + 1)).map (steps ++ ·) := by
  unfold read
  rw [Text.lines_line_append hline, readLines_cons, lineSteps?_closeLine, readLines_succ]

theorem read_nil : read [] = .ok [] := rfl

/-! ### Two texts -/

/-- The text is empty or ends in a line feed. -/
def Ended (a : List Char) : Prop := a = [] ∨ a.getLast? = some '\n'

theorem Ended.eq_nil (ha : Ended a) (hmem : '\n' ∉ a) : a = [] :=
  ha.resolve_right fun hlast => hmem (List.mem_of_getLast? hlast)

theorem Ended.rest {rest : List Char} (ha : Ended (line ++ '\n' :: rest)) : Ended rest := by
  cases rest with
  | nil => exact .inl rfl
  | cons c rest =>
    rcases ha with h | h
    · simp at h
    · exact .inr (by simpa [List.getLast?_append] using h)

theorem ended_append (line : List Char) {rest : List Char} (hrest : Ended rest) :
    Ended (line ++ '\n' :: rest) := by
  rcases hrest with rfl | h
  · exact .inr (by simp)
  · exact .inr (by simp [List.getLast?_append, List.getLast?_cons, h])

theorem count_line_append (hline : '\n' ∉ line) (rest : List Char) :
    (line ++ '\n' :: rest).count '\n' = rest.count '\n' + 1 := by
  rw [List.count_append, List.count_eq_zero.mpr hline, List.count_cons_self, Nat.zero_add]

theorem read_append (ha : Ended a) (b : List Char) :
    read (a ++ b) = (read a).bind fun steps =>
      ((read b).mapError (· + a.count '\n')).map (steps ++ ·) := by
  induction a using Text.line_induction with
  | last line hline =>
    rw [ha.eq_nil hline, List.nil_append, read_nil]
    cases read b <;> simp [Except.bind, Except.map, mapError_error, mapError_ok]
  | more line rest hline ih =>
    rw [List.append_assoc, List.cons_append, read_line_append hline, read_line_append hline,
      ih ha.rest, count_line_append hline]
    cases lineSteps? line with
    | none => rfl
    | some steps =>
      cases read rest with
      | error m => rfl
      | ok later =>
        cases read b <;>
          simp [Except.bind, Except.map, mapError_error, mapError_ok, Nat.add_assoc]

/-! ### Line endings -/

/-- Without the carriage returns that stand right before a line feed. -/
def feedsOnly : List Char → List Char
  | [] => []
  | c :: cs => if c = '\r' ∧ cs.head? = some '\n' then feedsOnly cs else c :: feedsOnly cs

theorem feedsOnly_of_not_mem (hline : '\n' ∉ line) : feedsOnly line = line := by
  induction line with
  | nil => rfl
  | cons c line ih =>
    have hrest : '\n' ∉ line := fun h => hline (List.mem_cons_of_mem c h)
    have hhead : line.head? ≠ some '\n' := fun h => hrest (List.mem_of_mem_head? h)
    rw [feedsOnly, if_neg fun h => hhead h.2, ih hrest]

theorem feedsOnly_line_append (hline : '\n' ∉ line) (rest : List Char) :
    feedsOnly (line ++ '\n' :: rest) = Text.closeLine line.reverse ++ '\n' :: feedsOnly rest := by
  induction line with
  | nil => rfl
  | cons c line ih =>
    have hrest : '\n' ∉ line := fun h => hline (List.mem_cons_of_mem c h)
    rw [List.cons_append, feedsOnly, ih hrest, List.reverse_cons]
    cases line with
    | nil =>
      -- the carriage return of the ending, if there is one
      by_cases hc : c = '\r' <;> simp [Text.closeLine, hc]
    | cons d line =>
      have hd : d ≠ '\n' := fun h => hrest (h ▸ List.mem_cons_self)
      rw [Text.closeLine_concat (by simp)]
      simp [hd]

theorem read_feedsOnly (cs : List Char) : read (feedsOnly cs) = read cs := by
  induction cs using Text.line_induction with
  | last line hline => rw [feedsOnly_of_not_mem hline]
  | more line rest hline ih =>
    have hclosed : '\n' ∉ Text.closeLine line.reverse :=
      fun h => hline (List.mem_reverse.mp (Text.mem_of_mem_closeLine h))
    rw [feedsOnly_line_append hline, read_line_append hclosed, read_line_append hline, ih,
      lineSteps?_closeLine]

theorem read_append_feed (cs : List Char) : read (cs ++ ['\n']) = read cs := by
  induction cs using Text.line_induction with
  | last line hline =>
    rw [read_line_append hline, read_line hline, read_nil]
    cases lineSteps? line with
    | none => rfl
    | some steps => simp [Except.map, mapError_ok]
  | more line rest hline ih =>
    rw [List.append_assoc, List.cons_append, read_line_append hline, read_line_append hline, ih]

/-- What ends a line: nothing if it is the last one of the text. -/
def endings : List (List Char) := [[], ['\n'], ['\r', '\n']]

theorem read_line_ending {ending : List Char} (hline : '\n' ∉ line) (hending : ending ∈ endings) :
    read (line ++ ending) = match lineSteps? line with
      | none => .error 1
      | some steps => .ok steps := by
  simp only [endings, List.mem_cons, List.not_mem_nil, or_false] at hending
  rcases hending with rfl | rfl | rfl
  · rw [List.append_nil, read_line hline]
  · rw [read_append_feed, read_line hline]
  · have hreturn : '\n' ∉ line ++ ['\r'] := by simp [hline]
    rw [List.append_cons, read_append_feed, read_line hreturn,
      lineSteps?_append_return]

/-! ### The number of a failure -/

/-- No line of the text is malformed. -/
def WellFormed (cs : List Char) : Prop := ∀ line ∈ Text.lines cs, ¬ Malformed line

/-- The first malformed line of the text has the number `n`, counted from 1. -/
def FirstMalformed (cs : List Char) (n : Nat) : Prop :=
  ∃ before line after, cs = before ++ line ++ after ∧ Ended before ∧ '\n' ∉ line ∧
    (after = [] ∨ after.head? = some '\n') ∧ WellFormed before ∧ Malformed line ∧
    n = before.count '\n' + 1

theorem readLines_ok_iff (n : Nat) (lines : List (List Char)) :
    (∃ steps, readLines n lines = .ok steps) ↔ ∀ line ∈ lines, ¬ Malformed line := by
  induction lines generalizing n with
  | nil => simp [readLines]
  | cons line rest ih =>
    rw [readLines_cons, List.forall_mem_cons, ← ih (n + 1), ← lineSteps?_eq_none_iff]
    cases lineSteps? line with
    | none => simp
    | some steps => cases readLines (n + 1) rest <;> simp [Except.map]

theorem read_ok_iff (cs : List Char) : (∃ steps, read cs = .ok steps) ↔ WellFormed cs :=
  readLines_ok_iff 1 (Text.lines cs)

theorem read_eq_error_of_firstMalformed (h : FirstMalformed cs n) : read cs = .error n := by
  obtain ⟨before, line, after, rfl, hended, hline, hafter, hbefore, hbad, rfl⟩ := h
  obtain ⟨steps, hsteps⟩ := (read_ok_iff before).mpr hbefore
  have hfirst : read (line ++ after) = .error 1 := by
    cases after with
    | nil => rw [List.append_nil, read_line hline, lineSteps?_eq_none_iff.mpr hbad]
    | cons c after =>
      have hc : c = '\n' := by simpa using hafter
      rw [hc, read_line_append hline, lineSteps?_eq_none_iff.mpr hbad]
  rw [List.append_assoc, read_append hended, hsteps, hfirst]
  simp [Except.bind, Except.map, mapError_error, Nat.add_comm]

theorem firstMalformed_of_read_eq_error (h : read cs = .error n) : FirstMalformed cs n := by
  induction cs using Text.line_induction generalizing n with
  | last line hline =>
    rw [read_line hline] at h
    cases hsteps : lineSteps? line with
    | none =>
      obtain rfl : 1 = n := by simpa [hsteps] using h
      exact ⟨[], line, [], by simp, .inl rfl, hline, .inl rfl, by simp [WellFormed, Text.lines,
        Text.linesFrom], lineSteps?_eq_none_iff.mp hsteps, rfl⟩
    | some steps => simp [hsteps] at h
  | more line rest hline ih =>
    rw [read_line_append hline] at h
    cases hsteps : lineSteps? line with
    | none =>
      obtain rfl : 1 = n := by simpa [hsteps] using h
      exact ⟨[], line, '\n' :: rest, by simp, .inl rfl, hline, .inr rfl, by simp [WellFormed,
        Text.lines, Text.linesFrom], lineSteps?_eq_none_iff.mp hsteps, rfl⟩
    | some steps =>
      cases hrest : read rest with
      | ok later => simp [hsteps, hrest, Except.map, mapError_ok] at h
      | error m =>
        obtain rfl : m + 1 = n := by simpa [hsteps, hrest, Except.map, mapError_error] using h
        obtain ⟨before, bad, after, rfl, hended, hbad, hafter, hbefore, hmalformed, rfl⟩ := ih hrest
        obtain ⟨earlier, hearlier⟩ := (read_ok_iff before).mpr hbefore
        refine ⟨line ++ '\n' :: before, bad, after, by simp, ended_append line hended, hbad, hafter,
          (read_ok_iff _).mp ⟨steps ++ earlier, ?_⟩, hmalformed, ?_⟩
        · rw [read_line_append hline, hsteps, hearlier]
          rfl
        · rw [count_line_append hline]

/-! ### The reader -/

/-- A script is read line by line. -/
structure Linewise : Prop where
  /-- A failure in the first of two texts is the failure of both. -/
  failsBefore : ∀ a b n, Ended a → read a = .error n → read (a ++ b) = .error n
  /-- A failure in the second one is numbered behind the lines of the first. -/
  failsBehind : ∀ a b steps m, Ended a → read a = .ok steps → read b = .error m →
    read (a ++ b) = .error (m + a.count '\n')
  joins : ∀ a b steps later, Ended a → read a = .ok steps → read b = .ok later →
    read (a ++ b) = .ok (steps ++ later)
  skips : ∀ line, '\n' ∉ line → Idle line → ∀ ending ∈ endings, read (line ++ ending) = .ok []
  one : ∀ line step, '\n' ∉ line → isSkippedLine line = false →
    ScriptStep.ofLine? line = some step → ∀ ending ∈ endings, read (line ++ ending) = .ok [step]
  feeds : ∀ cs, read (feedsOnly cs) = read cs
  lastFeed : ∀ cs, read (cs ++ ['\n']) = read cs
  first : ∀ cs n, read cs = .error n ↔ FirstMalformed cs n
  reads : ∀ cs, (∃ steps, read cs = .ok steps) ↔ WellFormed cs

theorem read_linewise : Linewise where
  failsBefore a b n ha hread := by
    rw [read_append ha, hread]
    rfl
  failsBehind a b steps m ha hread hb := by
    rw [read_append ha, hread, hb]
    rfl
  joins a b steps later ha hread hb := by
    rw [read_append ha, hread, hb]
    rfl
  skips line hline hidle ending hending := by
    rw [read_line_ending hline hending, lineSteps?, if_pos (isSkippedLine_of_idle hidle)]
  one line step hline hskipped hstep ending hending := by
    rw [read_line_ending hline hending, lineSteps?, hskipped, hstep]
    rfl
  feeds := read_feedsOnly
  lastFeed := read_append_feed
  first _ _ := ⟨firstMalformed_of_read_eq_error, read_eq_error_of_firstMalformed⟩
  reads := read_ok_iff

/-- Two lines, the first of them a comment, and behind them a blank line and a malformed one. -/
theorem read_linewise_numbers : ∃ a b, Ended a ∧ read a = .ok [.pressure] ∧ read b = .error 2 ∧
    read (a ++ b) = .error 4 := by
  let a := "# note\r\n\"pressure\"\n".toList
  let b := "\n[1]".toList
  have ha : Ended a := .inr (by decide)
  have hfirst : read a = .ok [.pressure] := by rfl
  have hsecond : read b = .error 2 := by rfl
  exact ⟨a, b, ha, hfirst, hsecond, read_linewise.failsBehind a b _ 2 ha hfirst hsecond⟩

end MemoryArbiter.Script
