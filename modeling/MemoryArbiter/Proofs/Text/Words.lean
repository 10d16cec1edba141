import MemoryArbiter.Text.Blank
import MemoryArbiter.Text.Lines

/-! # Words and lines

Words are told apart by blanks, however many, and blanks around them count for nothing.  So a line
has the same words with a carriage return at its end as without it.
-/

namespace MemoryArbiter.Text

variable {c : Char} {bs word rest : List Char}

/-! ### Words -/

theorem wordsFrom_append_blank (hc : isBlank c = true) (word a b : List Char) :
    wordsFrom word (a ++ c :: b) = wordsFrom word a ++ words b := by
  induction a generalizing word with
  | nil => cases word <;> simp [wordsFrom, words, hc]
  | cons d a ih =>
    simp only [List.cons_append, wordsFrom, ih]
    split
    · split <;> simp
    · rfl

/-- Words end at a blank. -/
theorem words_append_blank (hc : isBlank c = true) (a b : List Char) :
    words (a ++ c :: b) = words a ++ words b :=
  wordsFrom_append_blank hc [] a b

theorem words_nil : words [] = [] := rfl

theorem words_blank_cons (hc : isBlank c = true) (a : List Char) : words (c :: a) = words a :=
  words_append_blank hc [] a

theorem words_blanks_append (hbs : ∀ c ∈ bs, isBlank c = true) (a : List Char) :
    words (bs ++ a) = words a := by
  induction bs with
  | nil => rfl
  | cons b bs ih =>
    rw [List.cons_append, words_blank_cons (hbs b List.mem_cons_self)]
    exact ih fun c hc => hbs c (List.mem_cons_of_mem b hc)

/-- A run of blanks separates words; at either end it may also be empty. -/
theorem words_append_blanks_append (hbs : ∀ c ∈ bs, isBlank c = true) {a b : List Char}
    (hrun : bs ≠ [] ∨ a = [] ∨ b = []) : words (a ++ (bs ++ b)) = words a ++ words b := by
  cases bs with
  | nil =>
    rcases hrun.resolve_left fun h => h rfl with rfl | rfl
    · rfl
    · simp [words_nil]
  | cons c bs =>
    rw [List.cons_append, words_append_blank (hbs c List.mem_cons_self),
      words_blanks_append fun d hd => hbs d (List.mem_cons_of_mem c hd)]

theorem words_append_blanks (hbs : ∀ c ∈ bs, isBlank c = true) (a : List Char) :
    words (a ++ bs) = words a := by
  have h := words_append_blanks_append hbs (.inr (.inr rfl) : bs ≠ [] ∨ a = [] ∨ [] = [])
  rwa [List.append_nil, words_nil, List.append_nil] at h

theorem wordsFrom_of_nonblank (hword : ∀ c ∈ word, isBlank c = false) (read : List Char) :
    wordsFrom read word = if read.isEmpty && word.isEmpty then [] else [read.reverse ++ word] := by
  induction word generalizing read with
  | nil => cases read <;> simp [wordsFrom]
  | cons c word ih =>
    rw [wordsFrom, hword c List.mem_cons_self, if_neg Bool.false_ne_true,
      ih fun d hd => hword d (List.mem_cons_of_mem c hd)]
    simp

/-- What has no blank in it is one word. -/
theorem words_of_nonblank (hne : word ≠ []) (hword : ∀ c ∈ word, isBlank c = false) :
    words word = [word] := by
  have hempty : word.isEmpty = false := by simpa using hne
  simp [words, wordsFrom_of_nonblank hword, hempty]

/-- A word that ends where the text does or at a blank. -/
theorem words_word_append (hne : word ≠ []) (hword : ∀ c ∈ word, isBlank c = false)
    (hrest : ∀ c ∈ rest.head?, isBlank c = true) : words (word ++ rest) = word :: words rest := by
  cases rest with
  | nil => rw [List.append_nil, words_of_nonblank hne hword, words_nil]
  | cons c rest =>
    have hc : isBlank c = true := hrest c rfl
    rw [words_append_blank hc, words_of_nonblank hne hword, words_blank_cons hc]
    rfl

/-! ### What follows a key -/

theorem after?_append (key rest : List Char) : after? key (key ++ rest) = some rest :=
  after?_eq_some_iff.mpr rfl

theorem after?_eq_none_iff {key cs : List Char} : after? key cs = none ↔ ¬ key <+: cs := by
  constructor
  · rintro h ⟨rest, rfl⟩
    exact nomatch h.symm.trans (after?_append key rest)
  · intro h
    refine Option.eq_none_iff_forall_ne_some.mpr fun rest hrest => h ⟨rest, ?_⟩
    exact (after?_eq_some_iff.mp hrest).symm

theorem findSome?_after?_eq_some_iff {key rest : List Char} {xs : List (List Char)} :
    xs.findSome? (after? key) = some rest ↔
      ∃ before after, xs = before ++ (key ++ rest) :: after ∧ ∀ x ∈ before, ¬ key <+: x := by
  rw [List.findSome?_eq_some_iff]
  constructor
  · rintro ⟨before, x, after, hxs, hx, hbefore⟩
    obtain rfl := after?_eq_some_iff.mp hx
    exact ⟨before, after, hxs, fun y hy => after?_eq_none_iff.mp (hbefore y hy)⟩
  · rintro ⟨before, after, hxs, hbefore⟩
    exact ⟨before, key ++ rest, after, hxs, after?_append key rest,
      fun y hy => after?_eq_none_iff.mpr (hbefore y hy)⟩

theorem findSome?_after?_eq_none_iff {key : List Char} {xs : List (List Char)} :
    xs.findSome? (after? key) = none ↔ ∀ x ∈ xs, ¬ key <+: x := by
  simp only [List.findSome?_eq_none_iff, after?_eq_none_iff]

/-! ### Lines -/

theorem closeLine_reverse (line : List Char) :
    closeLine line.reverse = line ∨ line = closeLine line.reverse ++ ['\r'] := by
  rw [← List.reverse_reverse line]
  generalize line.reverse = read
  rw [List.reverse_reverse]
  unfold closeLine
  split
  · exact .inr (by simp)
  · exact .inl rfl

/-- The first line of a text, and what is behind it. -/
theorem exists_first_line (cs : List Char) : ∃ line behind, cs = line ++ behind ∧ '\n' ∉ line ∧
    (behind = [] ∨ ∃ rest, behind = '\n' :: rest) := by
  induction cs using line_induction with
  | last line hline => exact ⟨line, [], by simp, hline, .inl rfl⟩
  | more line rest hline _ => exact ⟨line, '\n' :: rest, rfl, hline, .inr ⟨rest, rfl⟩⟩

theorem words_append_return (line : List Char) : words (line ++ ['\r']) = words line := by
  have hreturn : isBlank '\r' = true := by decide
  exact words_append_blanks (List.forall_mem_singleton.mpr hreturn) line

theorem words_closeLine (line : List Char) : words (closeLine line.reverse) = words line := by
  rcases closeLine_reverse line with h | h
  · rw [h]
  · exact (words_append_return _).symm.trans (congrArg words h.symm)

/-- The text consists of the lines; behind each stands a line feed, or a carriage return and a line
feed, but the last one may do without. -/
inductive LaidOut : List (List Char) → List Char → Prop
  | nil : LaidOut [] []
  | last {line : List Char} : '\n' ∉ line → LaidOut [line] line
  | line {line ending text : List Char} {ls : List (List Char)} : '\n' ∉ line →
      ending = ['\n'] ∨ ending = ['\r', '\n'] → LaidOut ls text →
      LaidOut (line :: ls) (line ++ (ending ++ text))

theorem laidOut_lines (text : List Char) : LaidOut (lines text) text := by
  induction text using line_induction with
  | last line hline =>
    rw [lines_of_not_mem hline]
    cases line with
    | nil => exact .nil
    | cons c line => exact .last hline
  | more line rest hline ih =>
    have hclosed : '\n' ∉ closeLine line.reverse :=
      fun h => hline (List.mem_reverse.mp (mem_of_mem_closeLine h))
    rw [lines_line_append hline]
    rcases closeLine_reverse line with h | h
    · rw [h]
      exact .line hline (.inl rfl) ih
    · have htext := LaidOut.line hclosed (.inr rfl) ih
      rwa [List.cons_append, List.singleton_append, List.append_cons, ← h] at htext

end MemoryArbiter.Text
