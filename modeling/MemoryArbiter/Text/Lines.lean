/-! # Lines

A line ends with a line feed, and a carriage return right before that belongs to the ending.  What
follows the last line feed is a line of its own, unless it is empty; it keeps a carriage return.
-/

namespace MemoryArbiter.Text

/-- A line without its carriage return; the line is kept in reverse. -/
def closeLine : List Char → List Char
  | '\r' :: line => line.reverse
  | line => line.reverse

theorem mem_of_mem_closeLine {c : Char} {line : List Char} (hc : c ∈ closeLine line) :
    c ∈ line := by
  unfold closeLine at hc
  split at hc
  · exact List.mem_cons_of_mem _ (List.mem_reverse.mp hc)
  · exact List.mem_reverse.mp hc

theorem closeLine_concat {line : List Char} (hline : line ≠ []) (c : Char) :
    closeLine (line ++ [c]) = c :: closeLine line := by
  cases line with
  | nil => exact absurd rfl hline
  | cons last line =>
    by_cases hlast : last = '\r'
    · simp [closeLine, hlast]
    · simp [closeLine, hlast]

/-- The lines of `cs`, the first one continuing `line`, which is kept in reverse. -/
def linesFrom (line : List Char) : List Char → List (List Char)
  | [] => if line.isEmpty then [] else [line.reverse]
  | c :: cs => if c = '\n' then closeLine line :: linesFrom [] cs else linesFrom (c :: line) cs

def lines (cs : List Char) : List (List Char) := linesFrom [] cs

theorem linesFrom_append (line a b : List Char) :
    linesFrom line (a ++ '\n' :: b) = linesFrom line (a ++ ['\n']) ++ lines b := by
  induction a generalizing line with
  | nil => simp [linesFrom, lines]
  | cons c a ih =>
    by_cases h : c = '\n'
    · simp [linesFrom, h, ih]
    · simp [linesFrom, h, ih]

/-- A text that ends in a line feed contributes its own lines to any continuation. -/
theorem lines_append (a b : List Char) : lines (a ++ '\n' :: b) = lines (a ++ ['\n']) ++ lines b :=
  linesFrom_append [] a b

/-! ### Line by line -/

theorem linesFrom_append_of_not_mem {a : List Char} (ha : '\n' ∉ a) (line b : List Char) :
    linesFrom line (a ++ b) = linesFrom (a.reverse ++ line) b := by
  induction a generalizing line with
  | nil => rfl
  | cons c a ih =>
    have hc : c ≠ '\n' := fun h => ha (h ▸ List.mem_cons_self)
    have hrest : '\n' ∉ a := fun h => ha (List.mem_cons_of_mem c h)
    simp [linesFrom, hc, ih hrest]

theorem lines_of_not_mem {line : List Char} (hline : '\n' ∉ line) :
    lines line = if line.isEmpty then [] else [line] := by
  have h := linesFrom_append_of_not_mem hline [] []
  rw [List.append_nil, List.append_nil] at h
  simp [lines, h, linesFrom]

theorem lines_line_append {line : List Char} (hline : '\n' ∉ line) (rest : List Char) :
    lines (line ++ '\n' :: rest) = closeLine line.reverse :: lines rest := by
  simp [lines, linesFrom_append_of_not_mem hline, linesFrom]

/-- A text is a line without a line feed, or such a line, a line feed and a text. -/
theorem line_induction {motive : List Char → Prop}
    (last : ∀ line, '\n' ∉ line → motive line)
    (more : ∀ line rest, '\n' ∉ line → motive rest → motive (line ++ '\n' :: rest))
    (cs : List Char) : motive cs := by
  -- `line` is what precedes the rest of the text on its line
  suffices h : ∀ line, '\n' ∉ line → motive (line ++ cs) from h [] List.not_mem_nil
  induction cs with
  | nil => simpa using last
  | cons c cs ih =>
    intro line hline
    by_cases hc : c = '\n'
    · subst hc
      exact more line cs hline (ih [] List.not_mem_nil)
    · have hlonger : '\n' ∉ line ++ [c] := by simp [hline, Ne.symm hc]
      simpa using ih (line ++ [c]) hlonger

end MemoryArbiter.Text
